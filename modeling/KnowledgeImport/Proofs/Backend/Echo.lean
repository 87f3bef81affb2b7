import KnowledgeImport.Proofs.Backend.Requests
import KnowledgeImport.Proofs.FileTree.WellFormed
import KnowledgeImport.Proofs.Text.Boundaries
import Mathlib.Data.List.TakeWhile

/-!
# What a message repeats of an answer

The message about a file that the backend does not take repeats the start of the answer's body, of
which it shows no more than 200 characters.  Characters are counted, but the text is cut among its
octets, where the first character that is left out begins (`encode_truncated`); so it is cut between
two characters.  The text that is cut has no blank characters at its ends (`trimmed_trim`), which the
text that is repeated may have.
-/

namespace KnowledgeImport

open Text

/-! ### Blank ends -/

namespace Text

/-- `u` is what is left of a text without the blank characters at its ends. -/
structure Trimmed (s u : String) : Prop where
  split : ∃ front back, s = front ++ u ++ back ∧ isAllBlank front = true ∧ isAllBlank back = true
  first : ∀ c ∈ u.toList.head?, isBlank c = false
  last : ∀ c ∈ u.toList.getLast?, isBlank c = false

theorem head?_dropWhile_eq_false {α : Type} {p : α → Bool} {l : List α} {a : α}
    (h : a ∈ (l.dropWhile p).head?) : p a = false := by
  have hhead := List.head?_dropWhile_not p l
  rwa [Option.mem_def.mp h] at hhead

theorem trimmed_trim (s : String) : Trimmed s (trim s) := by
  have hfront : s.toList = s.toList.takeWhile isBlank ++ s.toList.dropWhile isBlank :=
    List.takeWhile_append_dropWhile.symm
  let rest := s.toList.dropWhile isBlank
  have hback : rest = dropTrailing isBlank rest ++ (rest.reverse.takeWhile isBlank).reverse := by
    rw [dropTrailing, ← List.reverse_append, List.takeWhile_append_dropWhile, List.reverse_reverse]
  have hblank {cs : List Char} (h : ∀ c ∈ cs, isBlank c = true) :
      isAllBlank (String.ofList cs) = true := by
    rw [isAllBlank, String.toList_ofList, List.all_eq_true]
    exact h
  refine ⟨⟨String.ofList (s.toList.takeWhile isBlank),
    String.ofList (rest.reverse.takeWhile isBlank).reverse, ?_,
    hblank fun c hc => List.mem_takeWhile_imp hc,
    hblank fun c hc => List.mem_takeWhile_imp (List.mem_reverse.mp hc)⟩, ?_, ?_⟩
  · rw [trim, ← String.ofList_append, ← String.ofList_append, List.append_assoc, trimEnds, ← hback,
      ← hfront, String.ofList_toList]
  · -- what comes first is first in what is left of the front
    intro c hc
    rw [trim, String.toList_ofList, trimEnds] at hc
    have hrest : c ∈ rest.head? := by
      rw [hback, List.head?_append, Option.mem_def.mp hc]
      rfl
    exact head?_dropWhile_eq_false hrest
  · intro c hc
    rw [trim, String.toList_ofList, trimEnds, dropTrailing, List.getLast?_reverse] at hc
    exact head?_dropWhile_eq_false hc

end Text

/-! ### The first characters of a text -/

namespace Client

@[simp] theorem toList_truncated (n : Nat) (s : String) :
    (truncated n s).toList = s.toList.take n := by
  rw [truncated, String.toList_ofList]

theorem truncated_of_length_le {n : Nat} {s : String} (h : s.length ≤ n) : truncated n s = s := by
  rw [truncated, List.take_of_length_le (by rwa [String.length_toList]), String.ofList_toList]

theorem length_truncated (n : Nat) (s : String) : (truncated n s).length = min n s.length := by
  rw [truncated, String.length_ofList, List.length_take, String.length_toList]

/-- What follows the first characters of a text. -/
theorem exists_append_truncated (n : Nat) (s : String) : ∃ rest, s = truncated n s ++ rest := by
  refine ⟨String.ofList (s.toList.drop n), ?_⟩
  rw [truncated, ← String.ofList_append, List.take_append_drop, String.ofList_toList]

theorem encode_truncated (n : Nat) (s : String) : encode (truncated n s) = octetsBefore n s := by
  rw [octetsBefore, charOffsets]
  by_cases h : n < s.toList.length
  · have hencode : encode s = encode (truncated n s)
        ++ (s.toList.drop n).flatMap String.utf8EncodeChar := by
      rw [encode, encode, toList_truncated, ← List.flatMap_append, List.take_append_drop]
    rw [getElem?_charOffsetsFrom h, Nat.zero_add, ← toList_truncated, ← encode]
    dsimp only
    rw [hencode, List.take_left]
  · have hle : s.toList.length ≤ n := Nat.le_of_not_lt h
    rw [List.getElem?_eq_none (by rwa [length_charOffsetsFrom]),
      truncated_of_length_le (by rwa [← String.length_toList])]

/-- A text is the start of another, of 200 characters or of all that there are. -/
structure StartOf (u t : String) : Prop where
  start : t.toList <+: u.toList
  length : t.length = min 200 u.length
  whole : u.length ≤ 200 → t = u
  /-- It is cut where a character begins. -/
  octets : encode t = octetsBefore 200 u
  boundary : (String.Pos.Raw.mk (encode t).length).IsValid u
  again : truncated longestEcho t = t

theorem startOf_truncated (u : String) : StartOf u (truncated longestEcho u) where
  start := by
    rw [toList_truncated]
    exact List.take_prefix _ _
  length := length_truncated 200 u
  whole := truncated_of_length_le
  octets := encode_truncated 200 u
  boundary := by
    obtain ⟨rest, hrest⟩ := exists_append_truncated longestEcho u
    have hvalid := isValid_length_encode (truncated longestEcho u) rest
    rwa [← hrest] at hvalid
  again := by
    refine truncated_of_length_le ?_
    rw [length_truncated]
    exact Nat.min_le_left _ _

/-! ### Messages about answers -/

variable {σ : Type} {client : Client} {server : Server σ} {fs : FileSystem} {kind : UploadKind}

/-- An answer that is no success refuses the file. The message has the path, the status and a start
of the body: of its text without the blank characters at the ends, the first 200 characters, and all
of them if there are no more. Of a body that broke off, it has nothing. -/
theorem uploadFile_echoes {path : Path} {content : Content} {url : Url} {link : Link σ}
    {r : Response} (hread : fs.readFile path = .ok content)
    (hurl : client.address? uploadPath = some url)
    (hanswer : (server (client.uploadRequest url kind path content) link.state).1 = .response r)
    (hstatus : r.status < 200 ∨ 300 ≤ r.status) :
    ∃ t, (client.uploadFile server fs kind path link).1
        = .rejected (decodeLossy path.octets ++ ": HTTP " ++ toString r.status ++ ": " ++ t) ∧
      (∀ body, r.body = some body →
        let u := trim (decodeLossy body)
        Trimmed (decodeLossy body) u ∧ StartOf u t) ∧
      (r.body = none → t = "") := by
  have hrejected : (client.uploadFile server fs kind path link).1 = .rejected (rejection path r) := by
    have hfailed : ¬ r.isSuccess = true := by
      rw [Response.isSuccess, Bool.and_eq_true, decide_eq_true_iff, decide_eq_true_iff]
      omega
    rw [uploadFile_of_address? hurl hread, Link.send_eq]
    dsimp only
    rw [hanswer, replyResult, if_neg hfailed]
  refine ⟨echo r.body, hrejected, fun body hbody => ?_, fun hbody => ?_⟩
  · rw [hbody]
    exact ⟨trimmed_trim _, startOf_truncated _⟩
  · rw [hbody]
    rfl

/-- A body of a blank, an octet that begins no character, and 200 characters of two octets. -/
def longBody : List Octet := 0x20 :: 0xFF :: encode (String.ofList (List.replicate 200 'é'))

theorem decodeLossy_longBody :
    decodeLossy longBody = String.ofList (' ' :: '\uFFFD' :: List.replicate 200 'é') := by
  have hpieces : Utf8.pieces longBody = some ' ' :: none :: (List.replicate 200 'é').map some := by
    rw [← Utf8.pieces_flatMap, longBody, encode, String.toList_ofList]
    rfl
  rw [decodeLossy, hpieces, List.map_cons, List.map_cons, List.map_map]
  exact congrArg (fun cs => String.ofList (' ' :: '\uFFFD' :: cs)) (List.map_id _)

theorem trim_longBody :
    trim (decodeLossy longBody) = String.ofList ('\uFFFD' :: List.replicate 200 'é') := by
  have hlast : ('\uFFFD' :: List.replicate 200 'é').reverse.dropWhile isBlank
      = ('\uFFFD' :: List.replicate 200 'é').reverse := by
    rw [List.dropWhile_eq_self_iff, List.reverse_cons, List.reverse_replicate]
    intro _
    show ¬ isBlank 'é' = true
    decide
  rw [decodeLossy_longBody, trim, String.toList_ofList, trimEnds,
    List.dropWhile_cons_of_pos (by decide), List.dropWhile_cons_of_neg (by decide), dropTrailing,
    hlast, List.reverse_reverse]

/-- The server that finds nothing, and says so at length. -/
def notFound : Server Unit := fun _ state => (.response ⟨404, some longBody⟩, state)

/-- A client of the server on the same machine. -/
def uploader : Client where
  baseUrl := defaultBackendUrl
  projectId := ""
  concurrency := 1
  knowledgeType := ""
  tags := []

theorem uploadFile_echoes_longBody :
    ∃ t, (uploader.uploadFile notFound readmeAndSource .documents (Path.ofString "/README.md")
        { state := () }).1 = .rejected ("/README.md" ++ ": HTTP " ++ toString 404 ++ ": " ++ t) ∧
      t.toList = '\uFFFD' :: List.replicate 199 'é' ∧ truncated longestEcho t = t := by
  obtain ⟨content, hread⟩ : ∃ content,
      readmeAndSource.readFile (Path.ofString "/README.md") = .ok content := ⟨.octets [], by cbv⟩
  obtain ⟨url, hurl⟩ : ∃ url, uploader.address? uploadPath = some url := ⟨_, rfl⟩
  obtain ⟨t, hresult, hbody, -⟩ := @uploadFile_echoes Unit uploader notFound readmeAndSource .documents
    _ _ _ { state := () } _ hread hurl rfl (Or.inr (by decide))
  obtain ⟨-, hstart⟩ := hbody longBody rfl
  rw [trim_longBody] at hstart
  have hpath : decodeLossy (Path.ofString "/README.md").octets = "/README.md" := by decide +kernel
  have hlength : t.toList.length = 200 := by
    rw [String.length_toList, hstart.length, String.length_ofList, List.length_cons,
      List.length_replicate]
    rfl
  rw [hpath] at hresult
  refine ⟨t, hresult, ?_, hstart.again⟩
  rw [List.prefix_iff_eq_take.mp hstart.start, hlength, String.toList_ofList, List.take_succ_cons,
    List.take_replicate]
  rfl

end Client

end KnowledgeImport
