import KnowledgeImport.Backend.Client
import KnowledgeImport.Proofs.Json.Acceptance
import KnowledgeImport.Proofs.Json.Members
import KnowledgeImport.Proofs.Json.Writing
import KnowledgeImport.Proofs.Text.Encoding

/-!
# Which settings name a provider

Settings stand in the member `credentials` of a body, whatever it holds, and in the body itself only
if there is no such member (`SettingsOf`).  They name a provider if one of three of their members is a
text with a character that is not blank (`NamesProvider`).  So no other member matters, nor does
what stands before the last member with a key (`providerConfigured_spec`).
-/

namespace KnowledgeImport

open Text Json

/-- The settings in a body. -/
inductive SettingsOf (body : Value) : Value → Prop
  | wrapped {settings : Value} (h : body.Has "credentials" settings) : SettingsOf body settings
  | bare (h : ∀ settings, ¬ body.Has "credentials" settings) : SettingsOf body body

/-- The settings in the body name a provider. -/
def NamesProvider (body : Value) : Prop :=
  ∃ settings, SettingsOf body settings ∧
    ∃ key ∈ ["EMBEDDING_PROVIDER", "LLM_PROVIDER", "EMBEDDING_MODEL"],
      ∃ text, settings.Has key (.text text) ∧ ∃ c ∈ text.toList, isBlank c = false

theorem settings_iff {body settings : Value} :
    SettingsOf body settings ↔ (body.get? "credentials").getD body = settings := by
  constructor
  · rintro (h | h)
    · rw [Value.get?_eq_some_iff.mpr h]
      rfl
    · have hnone : body.get? "credentials" = none :=
        Option.eq_none_iff_forall_ne_some.mpr fun x hx => h x (Value.get?_eq_some_iff.mp hx)
      rw [hnone]
      rfl
  · rintro rfl
    cases hget : body.get? "credentials" with
    | some settings => exact .wrapped (Value.get?_eq_some_iff.mp hget)
    | none =>
      refine .bare fun settings h => ?_
      rw [Value.get?_eq_some_iff.mpr h] at hget
      cases hget

theorem isNamed_iff {v : Value} :
    isNamed v = true ↔ ∃ text, v = .text text ∧ ∃ c ∈ text.toList, isBlank c = false := by
  cases v with
  | text s =>
    rw [isNamed, isAllBlank, Bool.not_eq_true', List.all_eq_false]
    simp
  | null | bool | number | array | object => simp [isNamed]

/-- Settings are found configured exactly if they name a provider. -/
theorem providerConfigured_iff {body : Value} :
    providerConfigured body = true ↔ NamesProvider body := by
  have hkey (settings : Value) (key : String) : (settings.get? key).any isNamed = true ↔
      ∃ text, settings.Has key (.text text) ∧ ∃ c ∈ text.toList, isBlank c = false := by
    rw [Option.any_eq_true]
    simp only [isNamed_iff, Value.get?_eq_some_iff]
    constructor
    · rintro ⟨_, hhas, text, rfl, hc⟩
      exact ⟨text, hhas, hc⟩
    · rintro ⟨text, hhas, hc⟩
      exact ⟨_, hhas, text, rfl, hc⟩
  rw [providerConfigured, List.any_eq_true]
  simp only [hkey]
  constructor
  · intro h
    exact ⟨_, settings_iff.mpr rfl, h⟩
  · rintro ⟨settings, hsettings, h⟩
    rw [settings_iff.mp hsettings]
    exact h

/-- The answer depends on what is found in the settings under the three keys. -/
theorem providerConfigured_congr {body body' settings settings' : Value}
    (h : SettingsOf body settings) (h' : SettingsOf body' settings')
    (hkeys : ∀ key ∈ providerKeys,
      (settings.get? key).any isNamed = (settings'.get? key).any isNamed) :
    providerConfigured body = providerConfigured body' := by
  rw [providerConfigured, providerConfigured, settings_iff.mp h, settings_iff.mp h',
    Bool.eq_iff_iff, List.any_eq_true, List.any_eq_true]
  exact exists_congr fun key => and_congr_right fun hkey => by rw [hkeys key hkey]

theorem has_object_append {front back : List (String × Value)} {key : String} {x : Value}
    (h : key ∉ back.map Prod.fst) : (Value.object (front ++ (key, x) :: back)).Has key x :=
  ⟨front, back, rfl, fun _ hm heq => h (heq ▸ List.mem_map_of_mem hm)⟩

/-- A body without the member `credentials` holds the settings itself. -/
theorem settings_object {members : List (String × Value)}
    (h : "credentials" ∉ members.map Prod.fst) :
    SettingsOf (.object members) (.object members) := by
  rw [settings_iff, Value.get?_object_eq_none_iff.mpr h]
  rfl

/-- To put settings into the member `credentials` makes no difference. -/
theorem providerConfigured_wrapped {members : List (String × Value)}
    (h : "credentials" ∉ members.map Prod.fst) :
    providerConfigured (.object [("credentials", .object members)])
      = providerConfigured (.object members) :=
  providerConfigured_congr (.wrapped (@has_object_append [] [] _ _ List.not_mem_nil))
    (settings_object h) fun _ _ => rfl

/-- In the member `credentials`, only the three keys matter. -/
theorem providerConfigured_of_same_wrapped {members members' front back : List (String × Value)}
    (h : members.filter (·.1 ∈ providerKeys) = members'.filter (·.1 ∈ providerKeys))
    (hback : "credentials" ∉ back.map Prod.fst) :
    providerConfigured (.object (front ++ ("credentials", .object members) :: back))
      = providerConfigured (.object (front ++ ("credentials", .object members') :: back)) := by
  refine providerConfigured_congr (.wrapped (has_object_append hback))
    (.wrapped (has_object_append hback)) fun key hkey => ?_
  rw [Value.get?_object_congr h hkey]

/-- In a body, only they and `credentials` do. -/
theorem providerConfigured_of_same {members members' : List (String × Value)}
    (h : members.filter (·.1 ∈ "credentials" :: providerKeys)
      = members'.filter (·.1 ∈ "credentials" :: providerKeys)) :
    providerConfigured (.object members) = providerConfigured (.object members') := by
  have hget {key : String} (hkey : key ∈ "credentials" :: providerKeys) :=
    Value.get?_object_congr h hkey
  have hcredentials := hget (List.mem_cons_self ..)
  cases hsettings : (Value.object members).get? "credentials" with
  | some settings =>
    rw [hsettings] at hcredentials
    exact providerConfigured_congr (.wrapped (Value.get?_eq_some_iff.mp hsettings))
      (.wrapped (Value.get?_eq_some_iff.mp hcredentials.symm)) fun _ _ => rfl
  | none =>
    rw [hsettings] at hcredentials
    refine providerConfigured_congr (settings_object (Value.get?_object_eq_none_iff.mp hsettings))
      (settings_object (Value.get?_object_eq_none_iff.mp hcredentials.symm)) fun key hkey => ?_
    rw [hget (List.mem_cons_of_mem _ hkey)]

theorem isNamed_settled (v : Value) : isNamed v.settled = isNamed v := by
  cases v <;> rfl

/-- Only what is left when the last of members with the same key are kept matters. -/
theorem providerConfigured_settled (body : Value) :
    providerConfigured body.settled = providerConfigured body := by
  have hsettings : (body.settled.get? "credentials").getD body.settled
      = ((body.get? "credentials").getD body).settled := by
    rw [Value.get?_settled]
    cases body.get? "credentials" <;> rfl
  refine providerConfigured_congr (settings_iff.mpr hsettings) (settings_iff.mpr rfl)
    fun key _ => ?_
  rw [Value.get?_settled, Option.any_map]
  simp only [isNamed_settled]

/-- The body of an answer is read as the value that it spells. -/
theorem namesProvider_encode {body : Value} {text : String} (h : body.SpelledBy text)
    (hdepth : body.depth ≤ Value.nestingLimit) {r : Response} (hr : r.isSuccess = true)
    (hbody : r.body = some (encode text)) :
    Client.namesProvider r = providerConfigured body := by
  rw [Client.namesProvider, hr, hbody, Option.bind_some, decode?_encode]
  simp [Value.ofString?_of_spelledBy h hdepth]

/-- Which bodies name a provider, and what has no influence on that: whether settings stand in the
body itself or in its member `credentials`; members of the settings with other keys than those three
and `credentials`, whether they are added, left out or changed; and, in a text, all that is spelled
for a key but the last. -/
theorem providerConfigured_spec :
    (∀ body, providerConfigured body = true ↔ NamesProvider body) ∧
    (∀ members : List (String × Value), "credentials" ∉ members.map Prod.fst →
      providerConfigured (.object [("credentials", .object members)])
        = providerConfigured (.object members)) ∧
    (∀ members members' : List (String × Value),
      members.filter (·.1 ∈ "credentials" :: providerKeys)
        = members'.filter (·.1 ∈ "credentials" :: providerKeys) →
      providerConfigured (.object members) = providerConfigured (.object members')) ∧
    (∀ members members' front back : List (String × Value),
      members.filter (·.1 ∈ providerKeys) = members'.filter (·.1 ∈ providerKeys) →
      "credentials" ∉ back.map Prod.fst →
      providerConfigured (.object (front ++ ("credentials", .object members) :: back))
        = providerConfigured (.object (front ++ ("credentials", .object members') :: back))) ∧
    ∀ (text : String) (body : Value), body.SpelledBy text → body.depth ≤ Value.nestingLimit →
      Value.ofString? text = some body ∧ body.settled.Distinct ∧
      (∀ key, body.settled.get? key = (body.get? key).map Value.settled) ∧
      ∀ r : Response, r.isSuccess = true → r.body = some (encode text) →
        Client.namesProvider r = providerConfigured body.settled := by
  refine ⟨fun _ => providerConfigured_iff, fun _ => providerConfigured_wrapped,
    fun _ _ => providerConfigured_of_same, fun _ _ _ _ => providerConfigured_of_same_wrapped, ?_⟩
  intro text body htext hdepth
  refine ⟨Value.ofString?_of_spelledBy htext hdepth, body.distinct_settled, body.get?_settled, ?_⟩
  intro r hr hbody
  rw [providerConfigured_settled, namesProvider_encode htext hdepth hr hbody]

/-- Settings with a blank text behind another one for the same key, and with a model. -/
def blankedProvider : List (String × Value) :=
  [("LLM_PROVIDER", .text "a"), ("LLM_PROVIDER", .text "\u2003\n"), ("EMBEDDING_MODEL", .text "é")]

/-- A body with `credentials` twice. -/
def credentialsTwice : Value :=
  .object [("credentials", .null), ("a", .array []), ("credentials", .object blankedProvider)]

/-- That body on many lines is a text of it. -/
theorem ofString?_credentialsTwice :
    Value.ofString? credentialsTwice.pretty = some credentialsTwice := by
  rw [Value.pretty, Value.ofString?_chars Value.blank_pretty]
  · rfl
  · simp [credentialsTwice, blankedProvider, Value.Integral, Value.MembersIntegral,
      Value.MemberIntegral, Value.ElementsIntegral]

theorem providerConfigured_spec_credentialsTwice :
    NamesProvider credentialsTwice ∧
    ("credentials" ∉ blankedProvider.map Prod.fst ∧
      providerConfigured (.object [("credentials", .object blankedProvider)])
        = providerConfigured (.object blankedProvider)) ∧
    (blankedProvider.filter (·.1 ∈ "credentials" :: providerKeys)
        = (("a", .null) :: blankedProvider).filter (·.1 ∈ "credentials" :: providerKeys) ∧
      providerConfigured (.object blankedProvider)
        = providerConfigured (.object (("a", .null) :: blankedProvider))) ∧
    (providerConfigured credentialsTwice
      = providerConfigured (.object ([("credentials", .null), ("a", .array [])] ++
          ("credentials", .object (("a", .null) :: blankedProvider)) :: []))) ∧
    (credentialsTwice.SpelledBy credentialsTwice.pretty ∧ credentialsTwice.depth = 2 ∧
      Client.namesProvider ⟨200, some (encode credentialsTwice.pretty)⟩
        = providerConfigured (.object [("a", .array []), ("credentials",
            .object [("LLM_PROVIDER", .text "\u2003\n"), ("EMBEDDING_MODEL", .text "é")])])) := by
  obtain ⟨hiff, hwrapped, hsame, hsame', htexts⟩ := providerConfigured_spec
  have hmissing : "credentials" ∉ blankedProvider.map Prod.fst := by decide
  obtain ⟨hspelled, hdepth⟩ := Value.ofString?_eq_some_iff.mp ofString?_credentialsTwice
  refine ⟨(hiff _).mp (by decide +kernel), ⟨hmissing, hwrapped _ hmissing⟩, ⟨rfl, hsame _ _ rfl⟩,
    hsame' _ _ [("credentials", .null), ("a", .array [])] [] rfl List.not_mem_nil, hspelled, rfl, ?_⟩
  exact (htexts _ _ hspelled hdepth).2.2.2 _ rfl rfl

end KnowledgeImport
