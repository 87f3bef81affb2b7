import KnowledgeImport.Import.Encoding
import KnowledgeImport.Proofs.Json.Records
import KnowledgeImport.Proofs.Text.Encoding
import Mathlib.Data.Set.Function

/-!
# What is written as JSON is read back

The record of an import, a configuration and extensions of the pattern lists are each written with
one member for each of their fields, in their order, so reading them sets one field after the other
(`ImportResult.ofDraft_draft`, `ImportConfig.ofDraft_draft`, `PatternExtensions.ofDraft_draft`).
Whether they are written on one line or on many, they are read as what they were, as long as the
counts fit sixty-four bits and the root is UTF-8; so no two of them are written alike
(`encoded_reads_back`).
-/

namespace KnowledgeImport

open Json Text

/-! ### The record -/

theorem ImportStatus.ofDraft_draft (s : ImportStatus) : ofDraft s.toJson.draft = .ok s := by
  cases s <;> rfl

namespace ImportResult

/-- The counts of the record fit sixty-four bits. -/
structure Fits (r : ImportResult) : Prop where
  documentsUploaded : r.documentsUploaded < wordLimit
  documentsFailed : r.documentsFailed < wordLimit
  codeExamples : r.codeExamples < wordLimit
  codeExamplesFailed : r.codeExamplesFailed < wordLimit

theorem integral_toJson (r : ImportResult) : r.toJson.Integral := by
  have htexts := Value.integral_texts r.errors
  simp [toJson, Value.Integral, Value.MembersIntegral, Value.MemberIntegral, Value.nat,
    ImportStatus.toJson, htexts]

theorem nodup_fields : (fields.map (·.name)).Nodup := by decide

/-- The tree of a record is read as the record. -/
theorem ofDraft_draft {r : ImportResult} (h : r.Fits) : ofDraft r.toJson.draft = .ok r := by
  refine RecordField.readRecord_object "struct ImportResult" nodup_fields
    [.text (.text r.projectId), r.status.toJson.draft,
      .numeral (Lexer.integer false r.documentsUploaded),
      .numeral (Lexer.integer false r.documentsFailed),
      .numeral (Lexer.integer false r.codeExamples),
      .numeral (Lexer.integer false r.codeExamplesFailed),
      (Value.texts r.errors).draft] rfl ?_
  simp only [fields, RecordField.of, List.zip_cons_cons, List.zip_nil_left, List.foldlM_cons,
    List.foldlM_nil, Draft.readText_text, ImportStatus.ofDraft_draft,
    Draft.readCount_integer h.documentsUploaded, Draft.readCount_integer h.documentsFailed,
    Draft.readCount_integer h.codeExamples, Draft.readCount_integer h.codeExamplesFailed,
    Draft.readList_texts]
  rfl

theorem readsBack_toJson {r : ImportResult} (h : r.Fits) : r.toJson.ReadsBack ofDraft r :=
  Value.readsBack_of_draft r.integral_toJson (ofDraft_draft h)

/-- What is printed of a record is read as the record. -/
theorem readString_pretty {r : ImportResult} (h : r.Fits) :
    readString ofDraft (r.toJson.pretty ++ "\n") = .ok r :=
  (readsBack_toJson h).printed

end ImportResult

/-! ### Extensions of the pattern lists -/

namespace PatternExtensions

theorem integral_toJson (e : PatternExtensions) : e.toJson.Integral := by
  simp [toJson, Value.Integral, Value.MembersIntegral, Value.MemberIntegral, Value.integral_texts]

theorem nodup_fields : (fields.map (·.name)).Nodup := by decide

/-- The tree of extensions is read as the extensions. -/
theorem ofDraft_draft (e : PatternExtensions) : ofDraft e.toJson.draft = .ok e := by
  refine RecordField.readRecord_object "struct PatternExtensions" nodup_fields
    [(Value.texts e.docPatterns).draft, (Value.texts e.excludePatterns).draft,
      (Value.texts e.codeExtensions).draft] rfl ?_
  simp only [fields, RecordField.of, List.zip_cons_cons, List.zip_nil_left, List.foldlM_cons,
    List.foldlM_nil, Draft.readList_texts]
  rfl

theorem readsBack_toJson (e : PatternExtensions) : e.toJson.ReadsBack ofDraft e :=
  Value.readsBack_of_draft e.integral_toJson e.ofDraft_draft

end PatternExtensions

/-! ### The configuration -/

theorem Path.text?_eq_some_iff {p : Path} {s : String} : p.text? = some s ↔ p = ofString s := by
  rw [text?, decode?_eq_encode_iff]
  exact ⟨fun h => congrArg mk h, fun h => congrArg octets h⟩

namespace ImportConfig

/-- The root of the configuration is UTF-8. -/
def HasTextRoot (c : ImportConfig) : Prop := ∃ root, c.root = Path.ofString root

/-- A configuration is written if its root is UTF-8. -/
theorem isSome_toJson?_iff (c : ImportConfig) : c.toJson?.isSome ↔ c.HasTextRoot := by
  rw [toJson?, HasTextRoot]
  simp only [← Path.text?_eq_some_iff]
  cases c.root.text? <;> simp

theorem nodup_fields : (fields.map (·.name)).Nodup := by decide

/-- The tree of a configuration is read as the configuration. -/
theorem ofDraft_draft {c : ImportConfig} {v : Value} (h : c.toJson? = some v) :
    v.Integral ∧ ofDraft v.draft = .ok c := by
  obtain ⟨root, hroot, hv⟩ := Option.bind_eq_some_iff.mp h
  obtain rfl := Option.some.inj hv
  have hpath : Path.ofString root = c.root := (Path.text?_eq_some_iff.mp hroot).symm
  constructor
  · simp [Value.Integral, Value.MembersIntegral, Value.MemberIntegral, Value.integral_texts]
  refine RecordField.readRecord_object "struct ImportConfig" nodup_fields
    [.text (.text root), .text (.text c.backendUrl), .text (.text c.projectId),
      .bool c.includeCodeExamples, .bool c.dryRun, (Value.texts c.docPatterns).draft,
      (Value.texts c.excludePatterns).draft, (Value.texts c.codeExtensions).draft] rfl ?_
  simp only [fields, RecordField.of, List.zip_cons_cons, List.zip_nil_left, List.foldlM_cons,
    List.foldlM_nil, Draft.readText_text, Draft.readList_texts, Draft.readBool, Except.map, hpath]
  rfl

theorem readsBack_of_toJson? {c : ImportConfig} {v : Value} (h : c.toJson? = some v) :
    v.ReadsBack ofDraft c :=
  Value.readsBack_of_draft (ofDraft_draft h).1 (ofDraft_draft h).2

end ImportConfig

/-! ### All three -/

/-- A record whose counts fit sixty-four bits, a configuration whose root is UTF-8, and extensions
are read back from what is written of them, on one line or on many; a configuration with another
root is not written.  So of each kind no two are written alike. -/
theorem encoded_reads_back :
    (∀ r : ImportResult, r.Fits → r.toJson.ReadsBack ImportResult.ofDraft r) ∧
    (∀ c : ImportConfig, (c.toJson?.isSome ↔ c.HasTextRoot) ∧
      ∀ v, c.toJson? = some v → v.ReadsBack ImportConfig.ofDraft c) ∧
    (∀ e : PatternExtensions, e.toJson.ReadsBack PatternExtensions.ofDraft e) ∧
    ∀ write ∈ Value.writings,
      Set.InjOn (fun r : ImportResult => write r.toJson) {r | r.Fits} ∧
      Set.InjOn (fun c : ImportConfig => c.toJson?.map write) {c | c.HasTextRoot} ∧
      Function.Injective fun e : PatternExtensions => write e.toJson := by
  refine ⟨fun r h => r.readsBack_toJson h, fun c => ⟨c.isSome_toJson?_iff, fun v h =>
    ImportConfig.readsBack_of_toJson? h⟩, PatternExtensions.readsBack_toJson, ?_⟩
  intro write hwrite
  refine ⟨?_, ?_, ?_⟩
  · intro r hr r' hr' heq
    exact (ImportResult.readsBack_toJson hr).eq_of_written (ImportResult.readsBack_toJson hr')
      hwrite heq
  · intro c hc c' hc' heq
    obtain ⟨v, hv⟩ := Option.isSome_iff_exists.mp (c.isSome_toJson?_iff.mpr hc)
    obtain ⟨v', hv'⟩ := Option.isSome_iff_exists.mp (c'.isSome_toJson?_iff.mpr hc')
    simp only [hv, hv', Option.map_some, Option.some.injEq] at heq
    exact (ImportConfig.readsBack_of_toJson? hv).eq_of_written
      (ImportConfig.readsBack_of_toJson? hv') hwrite heq
  · intro e e' heq
    exact e.readsBack_toJson.eq_of_written e'.readsBack_toJson hwrite heq

/-- A record with quotes, backslashes, control characters, characters of four octets and the
largest counts. -/
def ImportResult.awkward : ImportResult where
  projectId := "\"\\\x01\t😀"
  status := .successDryRun
  documentsUploaded := wordLimit - 1
  documentsFailed := 0
  codeExamples := 10
  codeExamplesFailed := wordLimit - 1
  errors := ["", "a\r\nb", "\",\"", "\\u0041"]

/-- A configuration with characters of several octets in its root and an empty list. -/
def ImportConfig.awkward : ImportConfig where
  root := Path.ofString "/tmp/é \"😀\""
  backendUrl := ""
  projectId := "\\\""
  includeCodeExamples := true
  dryRun := false
  docPatterns := []
  excludePatterns := ["**", "\x7f"]
  codeExtensions := [""]

theorem encoded_reads_back_awkward :
    ImportResult.awkward.Fits ∧
    ImportResult.awkward.toJson.ReadsBack ImportResult.ofDraft ImportResult.awkward ∧
    (∃ v, ImportConfig.awkward.toJson? = some v ∧
      v.ReadsBack ImportConfig.ofDraft ImportConfig.awkward) ∧
    (Value.pretty ∈ Value.writings ∧
      Function.Injective fun e : PatternExtensions => e.toJson.pretty) := by
  have hfits : ImportResult.awkward.Fits :=
    ⟨by decide, by decide, by decide, by decide⟩
  have hroot : ImportConfig.awkward.HasTextRoot := ⟨_, rfl⟩
  obtain ⟨hresult, hconfig, -, hwritten⟩ := encoded_reads_back
  obtain ⟨v, hv⟩ := Option.isSome_iff_exists.mp ((hconfig ImportConfig.awkward).1.mpr hroot)
  have hpretty : Value.pretty ∈ Value.writings := List.mem_cons_of_mem _ (List.mem_singleton_self _)
  exact ⟨hfits, hresult _ hfits, ⟨v, hv, (hconfig ImportConfig.awkward).2 v hv⟩, hpretty,
    (hwritten _ hpretty).2.2⟩

end KnowledgeImport
