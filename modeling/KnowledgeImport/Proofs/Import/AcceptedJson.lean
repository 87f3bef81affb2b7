import KnowledgeImport.Import.Encoding
import KnowledgeImport.Proofs.Json.FieldValues

/-!
# Which objects are records

The record of an import and its configuration are read from objects that have each of their fields
exactly once, with a value of its type; extensions of the pattern lists from objects that have each
of theirs at most once.  Neither the order of the members nor members of other names make a
difference.  An array is read as the record of an import if its elements are the values of the
fields in their order (`records_accepted`).
-/

namespace KnowledgeImport

open Json

/-! ### The record -/

theorem ImportStatus.ofDraft_eq_ok_iff {d : Draft} {s : ImportStatus} :
    ofDraft d = .ok s ↔ d.IsVariant s.name := by
  have hname (name : String) : ofName? name = some s ↔ name = s.name := by
    constructor
    · intro h
      have heq : s.name = name := by simpa using List.find?_some h
      exact heq.symm
    · rintro rfl
      cases s <;> rfl
  rw [ofDraft, Draft.readVariant_eq_ok_iff]
  simp only [hname, exists_eq_right]

namespace ImportResult

/-- The fields of the record in their order, and which trees have their values. -/
def components : List (Component Draft ImportResult) := [
  ⟨"project_id", _, Draft.IsText, projectId, fun r x => { r with projectId := x }⟩,
  ⟨"status", _, fun d s => d.IsVariant s.name, status, fun r x => { r with status := x }⟩,
  ⟨"documents_uploaded", _, Draft.IsCount, documentsUploaded,
    fun r x => { r with documentsUploaded := x }⟩,
  ⟨"documents_failed", _, Draft.IsCount, documentsFailed,
    fun r x => { r with documentsFailed := x }⟩,
  ⟨"code_examples", _, Draft.IsCount, codeExamples, fun r x => { r with codeExamples := x }⟩,
  ⟨"code_examples_failed", _, Draft.IsCount, codeExamplesFailed,
    fun r x => { r with codeExamplesFailed := x }⟩,
  ⟨"errors", _, Draft.IsTexts, errors, fun r x => { r with errors := x }⟩]

theorem comprise_components : RecordField.Comprise fields components where
  nodup := by decide
  get_set := by simp [components]
  get_set_of_ne := by simp [components]
  ext := by
    rintro ⟨⟩ ⟨⟩ h
    simpa [components] using h
  fields :=
    .cons (RecordField.is_of Draft.readText_eq_ok_iff) <|
    .cons (RecordField.is_of ImportStatus.ofDraft_eq_ok_iff) <|
    .cons (RecordField.is_of Draft.readCount_eq_ok_iff) <|
    .cons (RecordField.is_of Draft.readCount_eq_ok_iff) <|
    .cons (RecordField.is_of Draft.readCount_eq_ok_iff) <|
    .cons (RecordField.is_of Draft.readCount_eq_ok_iff) <|
    .cons (RecordField.is_of Draft.readTexts_eq_ok_iff) .nil

theorem required_of_mem_fields : ∀ field ∈ fields, field.required = true := by
  simp [fields, RecordField.of]

end ImportResult

/-! ### The configuration -/

namespace ImportConfig

/-- The fields of the configuration in their order, and which trees have their values. -/
def components : List (Component Draft ImportConfig) := [
  ⟨"root", _, fun d root => ∃ s, d.IsText s ∧ Path.ofString s = root, root,
    fun c x => { c with root := x }⟩,
  ⟨"archon_url", _, Draft.IsText, backendUrl, fun c x => { c with backendUrl := x }⟩,
  ⟨"project_id", _, Draft.IsText, projectId, fun c x => { c with projectId := x }⟩,
  ⟨"include_code_examples", _, Draft.IsBool, includeCodeExamples,
    fun c x => { c with includeCodeExamples := x }⟩,
  ⟨"dry_run", _, Draft.IsBool, dryRun, fun c x => { c with dryRun := x }⟩,
  ⟨"doc_patterns", _, Draft.IsTexts, docPatterns, fun c x => { c with docPatterns := x }⟩,
  ⟨"exclude_patterns", _, Draft.IsTexts, excludePatterns,
    fun c x => { c with excludePatterns := x }⟩,
  ⟨"code_extensions", _, Draft.IsTexts, codeExtensions, fun c x => { c with codeExtensions := x }⟩]

theorem comprise_components : RecordField.Comprise fields components where
  nodup := by decide
  get_set := by simp [components]
  get_set_of_ne := by simp [components]
  ext := by
    rintro ⟨⟩ ⟨⟩ h
    simpa [components] using h
  fields :=
    .cons ⟨rfl, by simp [RecordField.of, map_eq_ok_iff, Draft.readText_eq_ok_iff]⟩ <|
    .cons (RecordField.is_of Draft.readText_eq_ok_iff) <|
    .cons (RecordField.is_of Draft.readText_eq_ok_iff) <|
    .cons (RecordField.is_of Draft.readBool_eq_ok_iff) <|
    .cons (RecordField.is_of Draft.readBool_eq_ok_iff) <|
    .cons (RecordField.is_of Draft.readTexts_eq_ok_iff) <|
    .cons (RecordField.is_of Draft.readTexts_eq_ok_iff) <|
    .cons (RecordField.is_of Draft.readTexts_eq_ok_iff) .nil

theorem required_of_mem_fields : ∀ field ∈ fields, field.required = true := by
  simp [fields, RecordField.of]

end ImportConfig

/-! ### Extensions of the pattern lists -/

namespace PatternExtensions

/-- The fields of extensions in their order, and which trees have their values. -/
def components : List (Component Draft PatternExtensions) := [
  ⟨"doc_patterns", _, Draft.IsTexts, docPatterns, fun e x => { e with docPatterns := x }⟩,
  ⟨"exclude_patterns", _, Draft.IsTexts, excludePatterns,
    fun e x => { e with excludePatterns := x }⟩,
  ⟨"code_extensions", _, Draft.IsTexts, codeExtensions, fun e x => { e with codeExtensions := x }⟩]

theorem comprise_components : RecordField.Comprise fields components where
  nodup := by decide
  get_set := by simp [components]
  get_set_of_ne := by simp [components]
  ext := by
    rintro ⟨⟩ ⟨⟩ h
    simpa [components] using h
  fields :=
    .cons (RecordField.is_of Draft.readTexts_eq_ok_iff) <|
    .cons (RecordField.is_of Draft.readTexts_eq_ok_iff) <|
    .cons (RecordField.is_of Draft.readTexts_eq_ok_iff) .nil

theorem required_of_mem_fields : ∀ field ∈ fields, field.required = false := by
  simp [fields, RecordField.of]

end PatternExtensions

/-! ### All three -/

/-- Records of imports and configurations are read from objects with exactly one member for each
field, extensions from objects with at most one, an absent list being empty; and always the value of
each field has to be of its type. Neither the order nor members of other names count. From an array
the record of an import is read if its elements are the values of its fields in their order. -/
theorem records_accepted :
    RecordField.ReadsObjects ImportResult.ofDraft ImportResult.components true
      (ImportResult.start "") ∧
    RecordField.ReadsObjects ImportConfig.ofDraft ImportConfig.components true
      ImportConfig.blank ∧
    RecordField.ReadsObjects PatternExtensions.ofDraft PatternExtensions.components false {} ∧
    ∀ ds s, (Draft.array ds none).WrittenBy s → ∀ r, (readString ImportResult.ofDraft s = .ok r ↔
      List.Forall₂ (fun c d => c.reads d (c.get r)) ImportResult.components ds) := by
  refine ⟨ImportResult.comprise_components.readsObjects _ ImportResult.required_of_mem_fields _,
    ImportConfig.comprise_components.readsObjects _ ImportConfig.required_of_mem_fields _,
    PatternExtensions.comprise_components.readsObjects _
      PatternExtensions.required_of_mem_fields _, fun ds s hs r => ?_⟩
  rw [hs.readString_eq_ok_iff, ImportResult.ofDraft]
  exact RecordField.readRecord_array ImportResult.comprise_components _
    ImportResult.required_of_mem_fields

/-- Members of an object for extensions, one of them of another name. -/
def extensionMembers : List (String × Draft) :=
  [("x", .null), ("code_extensions", .array [.text (.text "rs")] none)]

def extensionsText : String := "\x7b\"x\":null,\"code_extensions\":[\"rs\"]\x7d"

theorem writtenBy_extensionsText : (Draft.ofMembers extensionMembers).WrittenBy extensionsText := by
  have hself (cs : List Char) : Padded cs cs := by
    simpa using @Padded.mk [] cs [] (List.forall_mem_nil _) (List.forall_mem_nil _)
  have hmember {key : String} {d : Draft} {w : List Char} (h : d.Written w) :
      Draft.MemberWritten (.text (.text key), d) (Value.textChars key ++ ':' :: w) :=
    ⟨_, [], [], w, Lexer.textSpelled_textChars key, List.forall_mem_nil _, List.forall_mem_nil _, h,
      by simp⟩
  have hlist : (Draft.array [.text (.text "rs")] none).Written ['[', '"', 'r', 's', '"', ']'] :=
    ⟨rfl, _, ⟨_, _, Lexer.textSpelled_textChars "rs", rfl, rfl⟩,
      Enclosed.parts (by simp) (.cons (hself _) .nil)⟩
  have hnull : Draft.Written .null ['n', 'u', 'l', 'l'] := rfl
  exact ⟨_, ⟨rfl, _, ⟨_, _, hmember hnull, ⟨_, _, hmember hlist, rfl, rfl⟩, rfl⟩,
    Enclosed.parts (by simp) (.cons (hself _) (.cons (hself _) .nil))⟩, hself _⟩

theorem records_accepted_otherMember :
    (Draft.ofMembers extensionMembers).WrittenBy extensionsText ∧
    readString PatternExtensions.ofDraft extensionsText = .ok { codeExtensions := ["rs"] } := by
  obtain ⟨-, -, hextensions, -⟩ := records_accepted
  refine ⟨writtenBy_extensionsText,
    (hextensions.reads_iff _ _ writtenBy_extensionsText _).mpr ?_⟩
  rw [PatternExtensions.components, List.forall_mem_cons, List.forall_mem_cons,
    List.forall_mem_singleton]
  exact ⟨.inl ⟨⟨rfl, by decide⟩, rfl⟩, .inl ⟨⟨rfl, by decide⟩, rfl⟩, .inr ⟨_, rfl, rfl⟩⟩

end KnowledgeImport
