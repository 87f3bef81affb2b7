import KnowledgeImport.Import.Report
import KnowledgeImport.Proofs.Text.Lines
import Mathlib.Tactic.SplitIfs

/-!
# Reading a summary

A summary leaves out lines for what there is none of, and shows messages as they are.  Still its
lines can be told apart (`ImportResult.linesOf_summary`): each kind begins in its own way, and a
message stands behind a bullet, so one that looks like a line of the report is not taken for one.
Hence the text tells the status and the messages, and of an import that did what was asked the counts
that it shows (`ImportResult.summary_eq_iff`).
-/

namespace KnowledgeImport

open Text

/-! ### Lines of a summary -/

namespace ImportStatus

/-- What the summary says first. -/
def headline : ImportStatus → String
  | .success => "Import completed successfully!"
  | .successDryRun => "Dry run finished, nothing was uploaded."
  | .failed => "Import failed (status: failed)"
  | .running => "Import failed (status: running)"

/-- What stands in front of each message. -/
def bullet (s : ImportStatus) : String :=
  if s.isSuccess then "     - " else "   - "

theorem headline_injective : Function.Injective headline := by
  intro s t h
  cases s <;> cases t <;> first | rfl | exact absurd h (by decide)

theorem isSuccess_iff {s : ImportStatus} :
    s.isSuccess = true ↔ s = .success ∨ s = .successDryRun := by
  cases s <;> simp [isSuccess]

end ImportStatus

namespace ImportResult

/-- The line about code examples, unless there are none. -/
def codeLines (n : Nat) : List String :=
  if n > 0 then ["   Extracted: " ++ toString n ++ " code examples"] else []

/-- The line over the messages, unless there are none. -/
def warningHeader (errors : List String) : List String :=
  if errors.isEmpty then [] else ["   Warnings (" ++ toString errors.length ++ "):"]

/-- The lines about counts. -/
def countLines (r : ImportResult) : List String :=
  ("   Uploaded: " ++ toString r.documentsUploaded ++ " documents")
    :: (codeLines r.codeExamples ++ warningHeader r.errors)

/-- The lines between the headline and the messages. -/
def detailLines (r : ImportResult) (config : ImportConfig) : List String :=
  if r.status.isSuccess then linesOf ("   Project: " ++ config.projectUrl) ++ r.countLines else []

/-- The messages, each behind its bullet. -/
def errorLines (r : ImportResult) : List String :=
  r.errors.map (r.status.bullet ++ ·)

variable {r r' : ImportResult} {config : ImportConfig}

theorem mem_codeLines {n : Nat} {l : String} (h : l ∈ codeLines n) :
    l = "   Extracted: " ++ (toString n ++ " code examples") := by
  rw [codeLines] at h
  split_ifs at h
  · rw [List.mem_singleton.mp h, String.append_assoc]
  · cases h

theorem mem_warningHeader {errors : List String} {l : String} (h : l ∈ warningHeader errors) :
    l = "   Warnings (" ++ (toString errors.length ++ "):") := by
  rw [warningHeader] at h
  split_ifs at h
  · cases h
  · rw [List.mem_singleton.mp h, String.append_assoc]

/-- A line about counts has its number behind one of three marks, and ends with it or with a text on
the same line. -/
theorem mem_countLines {l : String} (h : l ∈ r.countLines) :
    ∃ mark ∈ ["   Uploaded: ", "   Extracted: ", "   Warnings ("], ∃ n : Nat,
      ∃ rest ∈ [" documents", " code examples", "):"], l = mark ++ (toString n ++ rest) := by
  rw [countLines, List.mem_cons, List.mem_append] at h
  rcases h with rfl | h | h
  · exact ⟨_, .head _, _, _, .head _, String.append_assoc⟩
  · exact ⟨_, .tail _ (.head _), _, _, .tail _ (.head _), mem_codeLines h⟩
  · exact ⟨_, .tail _ (.tail _ (.head _)), _, _, .tail _ (.tail _ (.head _)), mem_warningHeader h⟩

theorem onOneLine_countLines : ∀ l ∈ r.countLines, OnOneLine l := by
  intro l hl
  obtain ⟨mark, hmark, n, rest, hrest, rfl⟩ := mem_countLines hl
  have hmarks : ∀ m ∈ ["   Uploaded: ", "   Extracted: ", "   Warnings ("], OnOneLine m := by decide
  have hrests : ∀ m ∈ [" documents", " code examples", "):"], OnOneLine m := by decide
  rw [onOneLine_append, onOneLine_append]
  exact ⟨hmarks mark hmark, onOneLine_toString n, hrests rest hrest⟩

theorem onOneLine_errorLines (hr : ∀ e ∈ r.errors, OnOneLine e) :
    ∀ l ∈ r.errorLines, OnOneLine l := by
  rw [errorLines, List.forall_mem_map]
  intro e he
  have hbullet : OnOneLine r.status.bullet := by
    rw [ImportStatus.bullet]
    split_ifs <;> decide
  exact onOneLine_append.mpr ⟨hbullet, hr e he⟩

theorem successLines_eq (h : r.status.isSuccess = true) (headline : String) :
    r.successLines headline config = headline :: ("   Project: " ++ config.projectUrl)
      :: (r.countLines ++ r.errorLines) := by
  have hbullet : r.status.bullet = "     - " := if_pos h
  have hwarnings : warningHeader r.errors ++ r.errorLines = if r.errors.isEmpty then []
      else ("   Warnings (" ++ toString r.errors.length ++ "):")
        :: r.errors.map ("     - " ++ ·) := by
    rw [errorLines, hbullet, warningHeader]
    cases r.errors <;> rfl
  rw [successLines, ← hwarnings, ← List.append_assoc]
  rfl

theorem linesOf_successLines (hr : ∀ e ∈ r.errors, OnOneLine e) (h : r.status.isSuccess = true)
    (headline : String) :
    linesOf (ProgressEvent.joinLines (r.successLines headline config))
      = linesOf headline ++ (r.detailLines config ++ r.errorLines) := by
  rw [ProgressEvent.joinLines, successLines_eq h, linesOf_intercalate (List.cons_ne_nil _ _),
    List.flatMap_cons, List.flatMap_cons, List.flatMap_append, flatMap_linesOf onOneLine_countLines,
    flatMap_linesOf (onOneLine_errorLines hr), detailLines, if_pos h, List.append_assoc]

theorem detailLines_of_not_success (h : r.status.isSuccess = false) : r.detailLines config = [] := by
  rw [detailLines, h]
  rfl

theorem linesOf_failureLines (hr : ∀ e ∈ r.errors, OnOneLine e) (h : r.status.isSuccess = false) :
    linesOf (ProgressEvent.joinLines r.failureLines)
      = linesOf ("\nImport failed (status: " ++ r.status.name ++ ")")
        ++ (r.detailLines config ++ r.errorLines) := by
  have hbullet : r.errors.map ("   - " ++ ·) = r.errorLines := by
    rw [errorLines, ImportStatus.bullet, h]
    rfl
  rw [ProgressEvent.joinLines, failureLines, linesOf_intercalate (List.cons_ne_nil _ _),
    List.flatMap_cons, hbullet, flatMap_linesOf (onOneLine_errorLines hr),
    detailLines_of_not_success h, List.nil_append]

/-- The lines of a summary whose messages have a line each: an empty one, the headline, the details
and the messages. -/
theorem linesOf_summary (hr : ∀ e ∈ r.errors, OnOneLine e) :
    linesOf (r.summary config)
      = "" :: r.status.headline :: (r.detailLines config ++ r.errorLines) := by
  rw [summary]
  cases hstatus : r.status with
  | success =>
    rw [linesOf_successLines hr (by rw [hstatus]; rfl)]
    rfl
  | successDryRun =>
    rw [linesOf_successLines hr (by rw [hstatus]; rfl)]
    rfl
  | failed =>
    rw [linesOf_failureLines hr (by rw [hstatus]; rfl), hstatus]
    rfl
  | running =>
    rw [linesOf_failureLines hr (by rw [hstatus]; rfl), hstatus]
    rfl

/-! ### Messages and counts -/

/-- Behind the bullets are the messages. -/
theorem filterMap_errorLines : r.errorLines.filterMap (afterMark? r.status.bullet) = r.errors :=
  filterMap_afterMark? _ _

theorem begins_errorLines : ∀ l ∈ r.errorLines, Begins r.status.bullet l := by
  rw [errorLines, List.forall_mem_map]
  exact fun e _ => begins_append _ _

/-- No line about counts is taken for a message. -/
theorem filterMap_countLines (r : ImportResult) :
    r.countLines.filterMap (afterMark? r.status.bullet) = [] := by
  refine filterMap_afterMark?_eq_nil fun l hl => ?_
  obtain ⟨mark, hmark, n, rest, -, rfl⟩ := mem_countLines hl
  have hapart : ∀ m ∈ ["   Uploaded: ", "   Extracted: ", "   Warnings ("],
      Apart r.status.bullet m := by
    rw [ImportStatus.bullet]
    split_ifs <;> decide
  exact (hapart mark hmark).not_begins (begins_append _ _)

/-- The line about code examples is told from those over and with messages. -/
theorem filterMap_extracted (h : r.status.isSuccess = true) :
    (codeLines r.codeExamples ++ (warningHeader r.errors ++ r.errorLines)).filterMap
        (afterMark? "   Extracted: ")
      = if r.codeExamples > 0 then [toString r.codeExamples ++ " code examples"] else [] := by
  have hheader : (warningHeader r.errors).filterMap (afterMark? "   Extracted: ") = [] := by
    refine filterMap_afterMark?_eq_nil fun l hl => ?_
    rw [mem_warningHeader hl]
    exact Apart.not_begins (by decide) (begins_append _ _)
  have herrors : r.errorLines.filterMap (afterMark? "   Extracted: ") = [] := by
    refine filterMap_afterMark?_eq_nil fun l hl => ?_
    have hapart : Apart "   Extracted: " r.status.bullet := by
      rw [ImportStatus.bullet, if_pos h]
      decide
    exact hapart.not_begins (begins_errorLines l hl)
  rw [List.filterMap_append, List.filterMap_append, hheader, herrors, List.append_nil,
    List.append_nil, codeLines]
  split_ifs
  · rw [String.append_assoc, List.filterMap_cons_some (afterMark?_append _ _), List.filterMap_nil]
  · rfl

theorem toString_append_inj {m n : Nat} {s : String} (h : toString m ++ s = toString n ++ s) :
    m = n :=
  toString_nat_injective ((String.append_left_inj s).mp h)

/-- The lines about counts and those with messages tell the counts. -/
theorem counts_eq_of_lines (h : r.status.isSuccess = true) (h' : r'.status.isSuccess = true)
    (heq : r.countLines ++ r.errorLines = r'.countLines ++ r'.errorLines) :
    r.documentsUploaded = r'.documentsUploaded ∧ r.codeExamples = r'.codeExamples := by
  rw [countLines, countLines, List.cons_append, List.cons_append, List.append_assoc,
    List.append_assoc] at heq
  obtain ⟨huploaded, hrest⟩ := List.cons.inj heq
  rw [String.append_assoc, String.append_assoc, String.append_right_inj] at huploaded
  refine ⟨toString_append_inj huploaded, ?_⟩
  have hextracted := congrArg (List.filterMap (afterMark? "   Extracted: ")) hrest
  rw [filterMap_extracted h, filterMap_extracted h'] at hextracted
  split_ifs at hextracted
  · exact toString_append_inj (List.cons.inj hextracted).1
  · omega

theorem summary_eq_of_fields (hstatus : r.status = r'.status) (herrors : r.errors = r'.errors)
    (hcounts : r.status.isSuccess = true →
      r.documentsUploaded = r'.documentsUploaded ∧ r.codeExamples = r'.codeExamples) :
    r.summary config = r'.summary config := by
  have hsuccess (h : r.status.isSuccess = true) (headline : String) :
      r.successLines headline config = r'.successLines headline config := by
    rw [successLines, successLines, (hcounts h).1, (hcounts h).2, herrors]
  have hfailure : r.failureLines = r'.failureLines := by
    rw [failureLines, failureLines, hstatus, herrors]
  rw [summary, summary, ← hstatus]
  cases hcase : r.status with
  | success | successDryRun => exact congrArg _ (hsuccess (by rw [hcase]; rfl) _)
  | failed | running => exact congrArg _ hfailure

/-- Summaries whose messages have a line each are the same text iff they show the same. -/
theorem summary_eq_iff (hr : ∀ e ∈ r.errors, OnOneLine e) (hr' : ∀ e ∈ r'.errors, OnOneLine e) :
    r.summary config = r'.summary config ↔
      r.status = r'.status ∧ r.errors = r'.errors ∧ (r.status.isSuccess = true →
        r.documentsUploaded = r'.documentsUploaded ∧ r.codeExamples = r'.codeExamples) := by
  constructor
  · intro h
    have hlines := congrArg linesOf h
    rw [linesOf_summary hr, linesOf_summary hr'] at hlines
    obtain ⟨hheadline, hrest⟩ := List.cons.inj (List.cons.inj hlines).2
    have hstatus : r.status = r'.status := ImportStatus.headline_injective hheadline
    refine ⟨hstatus, ?_⟩
    cases hsuccess : r.status.isSuccess with
    | false =>
      rw [detailLines_of_not_success hsuccess, detailLines_of_not_success (hstatus ▸ hsuccess)] at hrest
      refine ⟨?_, fun htrue => absurd htrue Bool.false_ne_true⟩
      rw [← filterMap_errorLines (r := r), ← filterMap_errorLines (r := r'), ← hstatus]
      exact congrArg _ hrest
    | true =>
      have hsuccess' : r'.status.isSuccess = true := hstatus ▸ hsuccess
      rw [detailLines, detailLines, if_pos hsuccess, if_pos hsuccess', List.append_assoc,
        List.append_assoc, List.append_cancel_left_eq] at hrest
      refine ⟨?_, fun _ => counts_eq_of_lines hsuccess hsuccess' hrest⟩
      -- the bullets lead to the messages of both
      have hmessages := congrArg (List.filterMap (afterMark? r.status.bullet)) hrest
      rw [List.filterMap_append, filterMap_countLines, filterMap_errorLines, hstatus,
        List.filterMap_append, filterMap_countLines, filterMap_errorLines] at hmessages
      exact hmessages
  · rintro ⟨hstatus, herrors, hcounts⟩
    exact summary_eq_of_fields hstatus herrors hcounts

/-- The bullets of a summary lead to its messages, unless they stand in the address. -/
theorem marked_summary (hr : ∀ e ∈ r.errors, OnOneLine e) :
    marked r.status.bullet (r.summary config)
      = (r.detailLines config).filterMap (afterMark? r.status.bullet) ++ r.errors := by
  have hempty : afterMark? r.status.bullet "" = none := by
    cases r.status <;> decide
  have hheadline : afterMark? r.status.bullet r.status.headline = none := by
    cases r.status <;> decide
  rw [marked, linesOf_summary hr, List.filterMap_cons_none hempty,
    List.filterMap_cons_none hheadline, List.filterMap_append, filterMap_errorLines]

theorem linesOf_project (hurl : OnOneLine config.projectUrl) :
    linesOf ("   Project: " ++ config.projectUrl) = ["   Project: " ++ config.projectUrl] :=
  linesOf_of_onOneLine (onOneLine_append.mpr ⟨by decide, hurl⟩)

theorem filterMap_detailLines (hurl : OnOneLine config.projectUrl) :
    (r.detailLines config).filterMap (afterMark? r.status.bullet) = [] := by
  rw [detailLines]
  split_ifs with h
  · have hapart : Apart r.status.bullet "   Project: " := by
      rw [ImportStatus.bullet, if_pos h]
      decide
    have hnone : afterMark? r.status.bullet ("   Project: " ++ config.projectUrl) = none :=
      if_neg (hapart.not_begins (begins_append _ _))
    rw [linesOf_project hurl, List.filterMap_append, filterMap_countLines,
      List.filterMap_cons_none hnone]
    rfl
  · rfl

/-- An import that failed has no line with the address of the project. -/
theorem not_begins_project (h : r.status.isSuccess = false) (hr : ∀ e ∈ r.errors, OnOneLine e) :
    ∀ line ∈ linesOf (r.summary config), ¬ Begins "   Project: " line := by
  rw [linesOf_summary hr, detailLines_of_not_success h, List.nil_append]
  have hheadline : ¬ Begins "   Project: " r.status.headline := by
    cases r.status <;> decide
  have hapart : Apart "   Project: " r.status.bullet := by
    rw [ImportStatus.bullet, h]
    decide
  intro line hline
  rcases List.mem_cons.mp hline with rfl | hline
  · decide
  · rcases List.mem_cons.mp hline with rfl | hline
    · exact hheadline
    · exact hapart.not_begins (begins_errorLines line hline)

theorem exists_project_line_iff (hr : ∀ e ∈ r.errors, OnOneLine e)
    (hurl : OnOneLine config.projectUrl) :
    (∃ line ∈ linesOf (r.summary config), Begins ("   Project: " ++ config.projectUrl) line)
      ↔ r.status.isSuccess = true := by
  constructor
  · rintro ⟨line, hline, hbegins⟩
    by_contra hfailed
    exact not_begins_project (Bool.eq_false_iff.mpr hfailed) hr line hline hbegins.of_append
  · intro h
    refine ⟨_, ?_, List.prefix_rfl⟩
    rw [linesOf_summary hr, detailLines, if_pos h, linesOf_project hurl]
    exact .tail _ (.tail _ (.head _))

/-- A summary loses nothing that it is meant to show. For a configuration, two imports whose messages
have a line each have the same summary exactly if they have the same status and the same messages
in the same order, and, if they did what was asked, the same counts of documents and of code
examples. The messages are what follows the bullets of the summary, line by line, at its end. For an
address of one line there are no other bullets, and there is a line with the address of the project
exactly if the status is a success. -/
theorem summary_tells (hr : ∀ e ∈ r.errors, OnOneLine e) :
    (∀ r' : ImportResult, (∀ e ∈ r'.errors, OnOneLine e) →
      (r.summary config = r'.summary config ↔
        r.status = r'.status ∧ r.errors = r'.errors ∧
          (r.status = .success ∨ r.status = .successDryRun →
            r.documentsUploaded = r'.documentsUploaded ∧ r.codeExamples = r'.codeExamples))) ∧
    r.errors <:+ marked r.status.bullet (r.summary config) ∧
    (OnOneLine config.projectUrl →
      marked r.status.bullet (r.summary config) = r.errors ∧
      ((∃ line ∈ linesOf (r.summary config), Begins ("   Project: " ++ config.projectUrl) line) ↔
        r.status = .success ∨ r.status = .successDryRun)) := by
  refine ⟨fun r' hr' => ?_, ?_, fun hurl => ⟨?_, ?_⟩⟩
  · rw [← ImportStatus.isSuccess_iff]
    exact summary_eq_iff hr hr'
  · rw [marked_summary hr]
    exact List.suffix_append _ _
  · rw [marked_summary hr, filterMap_detailLines hurl, List.nil_append]
  · rw [← ImportStatus.isSuccess_iff]
    exact exists_project_line_iff hr hurl

/-- An import with messages that look like lines of a report, one of them twice. -/
def imitating : ImportResult :=
  { start "abc-123" with
    status := .success
    documentsUploaded := 3
    errors := ["     - a", "   Extracted: 2 code examples", "     - a"] }

/-- An import with the line that a message of the other one looks like. -/
def imitated : ImportResult :=
  { imitating with codeExamples := 2, errors := ["     - a", "     - a"] }

/-- The configuration of these imports. -/
def localConfig : ImportConfig :=
  .assemble ⟨"abc-123", defaultBackendUrl, Path.ofString "/repo", true, false⟩ {}

theorem summary_tells_imitating :
    imitating.summary localConfig ≠ imitated.summary localConfig ∧
      marked "     - " (imitating.summary localConfig)
        = ["     - a", "   Extracted: 2 code examples", "     - a"] ∧
      ∃ line ∈ linesOf (imitating.summary localConfig),
        Begins ("   Project: " ++ localConfig.projectUrl) line := by
  have hmessages : ∀ e ∈ imitating.errors, OnOneLine e := by decide
  obtain ⟨hsame, -, hone⟩ := @summary_tells imitating localConfig hmessages
  have hurl : OnOneLine localConfig.projectUrl := by
    rw [ImportConfig.projectUrl, onOneLine_append, onOneLine_append]
    exact ⟨⟨by decide, by decide⟩, by decide⟩
  obtain ⟨hmarked, hproject⟩ := hone hurl
  refine ⟨fun h => ?_, hmarked, hproject.mpr (Or.inl rfl)⟩
  obtain ⟨-, herrors, -⟩ := (hsame imitated (by decide)).mp h
  revert herrors
  decide

end ImportResult

end KnowledgeImport
