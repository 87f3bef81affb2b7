import KnowledgeImport.Proofs.Backend.Requests
import Mathlib.Data.List.Basic
import Mathlib.Logic.Relation

/-!
# Files under way at the same time

A client has several files of a batch under way at a time: it starts them in order, as long as there
is room, their uploads are completed in any order, and their results are taken in order, up to the
first by which the backend is gone (`UploadWindow.Step`).

* `UploadWindow.Sound` is what every step keeps: what was taken so far and what is still to be taken
  come to the answer of uploading one file after the other (`UploadOutcome.collect`), and no file is
  started more than a window ahead of the results taken.
* `Client.answer_of_reaches`: whatever the order of the steps, a batch comes to an answer, and it is
  that of `Client.uploadBatch`.
-/

namespace KnowledgeImport

/-! ### Results taken from left to right -/

/-- The message about a file that the backend refuses or that cannot be read. -/
def FileResult.rejection? : FileResult → Option String
  | .rejected message => some message
  | .uploaded | .lost _ => none

/-- The file at place `i` is the first at which the backend is gone, in these words. -/
def FirstLoss (results : List FileResult) (i : Nat) (message : String) : Prop :=
  results[i]? = some (.lost message) ∧ ∀ j < i, ∀ m, results[j]? ≠ some (.lost m)

namespace UploadOutcome

/-- The answer of a batch whose files become what the list says, taken from left to right. -/
def collect (o : UploadOutcome) : List FileResult → Except String UploadOutcome
  | [] => .ok o
  | .uploaded :: results => o.recordSuccess.collect results
  | .rejected message :: results => (o.recordFailure message).collect results
  | .lost message :: _ => .error message

/-- Without a loss, all files are counted, and the messages are in order. -/
theorem collect_eq_ok {o : UploadOutcome} {results : List FileResult}
    (h : ∀ message, .lost message ∉ results) :
    o.collect results = .ok {
      successful := o.successful + results.count .uploaded
      failed := o.failed + (results.filterMap FileResult.rejection?).length
      errors := o.errors ++ results.filterMap FileResult.rejection? } := by
  fun_induction collect o results with
  | case1 o => simp
  | case2 o results ih =>
    have hskip : (FileResult.uploaded :: results).filterMap FileResult.rejection?
        = results.filterMap FileResult.rejection? := List.filterMap_cons_none rfl
    rw [ih fun message hmem => h message (List.mem_cons_of_mem _ hmem), hskip]
    simp [recordSuccess, Nat.add_assoc, Nat.add_comm 1]
  | case3 o message results ih =>
    rw [ih fun m hmem => h m (List.mem_cons_of_mem _ hmem)]
    simp [recordFailure, FileResult.rejection?, Nat.add_assoc, Nat.add_comm 1]
  | case4 o message results => exact absurd (List.mem_cons_self ..) (h message)

/-- The first loss is the answer. -/
theorem collect_eq_error {o : UploadOutcome} {results : List FileResult} {i : Nat}
    {message : String} (h : FirstLoss results i message) :
    o.collect results = .error message := by
  obtain ⟨hlost, hfirst⟩ := h
  induction results generalizing o i with
  | nil => cases hlost
  | cons result results ih =>
    cases i with
    | zero =>
      obtain rfl := Option.some.inj hlost
      rfl
    | succ i =>
      have hrest : ∀ j < i, ∀ m, results[j]? ≠ some (.lost m) := by
        intro j hj m
        exact hfirst (j + 1) (Nat.succ_lt_succ hj) m
      cases result with
      | uploaded => exact ih hlost hrest
      | rejected m => exact ih hlost hrest
      | lost m => exact absurd rfl (hfirst 0 (Nat.succ_pos i) m)

end UploadOutcome

namespace Client

variable {σ : Type}

/-- What becomes of each file, uploaded one after the other. -/
def fileResults (client : Client) (server : Server σ) (fs : FileSystem) (kind : UploadKind) :
    List Path → Link σ → List FileResult
  | [], _ => []
  | path :: paths, link =>
    let (result, link) := client.uploadFile server fs kind path link
    result :: client.fileResults server fs kind paths link

/-- The sequential upload takes the results from left to right. -/
theorem uploadFrom_eq_collect (client : Client) (server : Server σ) (fs : FileSystem)
    (kind : UploadKind) (o : UploadOutcome) (paths : List Path) (link : Link σ) :
    (client.uploadFrom server fs kind o paths link).1
      = o.collect (client.fileResults server fs kind paths link) := by
  induction paths generalizing o link with
  | nil => rfl
  | cons path paths ih =>
    rw [uploadFrom, fileResults]
    obtain ⟨result, link', hfile⟩ : ∃ result link',
        client.uploadFile server fs kind path link = (result, link') := ⟨_, _, rfl⟩
    rw [hfile]
    cases result with
    | uploaded => exact ih _ _
    | rejected message => exact ih _ _
    | lost message => rfl

end Client

/-! ### The window -/

/-- A batch with files under way. -/
structure UploadWindow where
  /-- The files that were started, each by its place in the batch, in the order of their starts. -/
  started : List Nat := []
  /-- How many results were taken and counted. -/
  taken : Nat := 0
  /-- The files that were started and whose results were not taken, the oldest first, each with its
  result once it is complete. -/
  underWay : List (Option FileResult) := []
  /-- What was counted so far. -/
  outcome : UploadOutcome := {}
  /-- The answer, once there is one. -/
  answer : Option (Except String UploadOutcome) := none

namespace UploadWindow

/-- Takes the result of the oldest file; `rest` are the others under way. A loss ends the batch, and
what is still under way is given up. -/
def take (w : UploadWindow) (rest : List (Option FileResult)) : FileResult → UploadWindow
  | .uploaded =>
    { w with taken := w.taken + 1, underWay := rest, outcome := w.outcome.recordSuccess }
  | .rejected message =>
    { w with taken := w.taken + 1, underWay := rest, outcome := w.outcome.recordFailure message }
  | .lost message => { w with underWay := [], answer := some (.error message) }

/-- What a batch with room for `room` files can do next, if its files become what `results` says:
start the next file, complete a file under way, take the result of the oldest one, or, after the
last, answer. -/
inductive Step (room : Nat) (results : List FileResult) (w : UploadWindow) : UploadWindow → Prop
  | start (hopen : w.answer = none) (hroom : w.underWay.length < room)
      (hnext : w.started.length < results.length) :
      Step room results w { w with
        started := w.started ++ [w.started.length], underWay := w.underWay ++ [none] }
  | complete {i : Nat} {result : FileResult} (hopen : w.answer = none)
      (hfile : w.underWay[i]? = some none) (hresult : results[w.taken + i]? = some result) :
      Step room results w { w with underWay := w.underWay.set i (some result) }
  | take {r : FileResult} {rest : List (Option FileResult)} (hopen : w.answer = none)
      (holdest : w.underWay = some r :: rest) : Step room results w (w.take rest r)
  | finish (hopen : w.answer = none) (hstarted : w.started.length = results.length)
      (hnone : w.underWay = []) : Step room results w { w with answer := some (.ok w.outcome) }

/-- The batch can come from its start to this state. -/
def Reaches (room : Nat) (results : List FileResult) (w : UploadWindow) : Prop :=
  Relation.ReflTransGen (Step room results) {} w

variable {room : Nat} {results : List FileResult} {w w' : UploadWindow}

/-! ### What every step keeps -/

/-- The files were started in order, at most `room` of them are under way, those completed have
their results, and what was counted comes with the rest to the sequential answer. -/
structure Sound (room : Nat) (results : List FileResult) (w : UploadWindow) : Prop where
  started_eq : w.started = List.range w.started.length
  started_le : w.started.length ≤ results.length
  length_underWay : w.underWay.length ≤ room
  ahead : w.started.length ≤ w.taken + room
  balance : w.answer = none → w.started.length = w.taken + w.underWay.length
  completed {i : Nat} {result : FileResult} (h : w.underWay[i]? = some (some result)) :
    results[w.taken + i]? = some result
  not_lost : ∀ i < w.taken, ∀ message, results[i]? ≠ some (.lost message)
  remaining : w.answer = none →
    w.outcome.collect (results.drop w.taken) = UploadOutcome.collect {} results
  settled {answer : Except String UploadOutcome} (h : w.answer = some answer) :
    UploadOutcome.collect {} results = answer
  lost {message : String} (h : w.answer = some (.error message)) :
    results[w.taken]? = some (.lost message)

theorem sound_empty : Sound room results {} where
  started_eq := rfl
  started_le := Nat.zero_le _
  length_underWay := Nat.zero_le _
  ahead := Nat.zero_le _
  balance _ := rfl
  completed h := by cases h
  not_lost _ hi := absurd hi (Nat.not_lt_zero _)
  remaining _ := rfl
  settled h := by cases h
  lost h := by cases h

theorem Sound.start (h : w.Sound room results) (hopen : w.answer = none)
    (hroom : w.underWay.length < room) (hnext : w.started.length < results.length) :
    Sound room results { w with
      started := w.started ++ [w.started.length], underWay := w.underWay ++ [none] } where
  started_eq := by
    rw [List.length_append, List.length_singleton, List.range_succ, ← h.started_eq]
  started_le := by
    rw [List.length_append, List.length_singleton]
    omega
  length_underWay := by
    rw [List.length_append, List.length_singleton]
    omega
  ahead := by
    have hbalance := h.balance hopen
    rw [List.length_append, List.length_singleton]
    dsimp only
    omega
  balance _ := by
    have hbalance := h.balance hopen
    rw [List.length_append, List.length_singleton, List.length_append, List.length_singleton]
    dsimp only
    omega
  completed {i result} hi := by
    -- the new file is not complete, so the file in question is one of the old ones
    rw [List.getElem?_append] at hi
    split_ifs at hi with hlt
    · exact h.completed hi
    · obtain ⟨hi, heq⟩ := List.getElem?_eq_some_iff.mp hi
      simp at heq
  not_lost := h.not_lost
  remaining := h.remaining
  settled := h.settled
  lost := h.lost

theorem Sound.complete (h : w.Sound room results) {i : Nat} {result : FileResult}
    (hopen : w.answer = none) (hresult : results[w.taken + i]? = some result) :
    Sound room results { w with underWay := w.underWay.set i (some result) } where
  started_eq := h.started_eq
  started_le := h.started_le
  length_underWay := by
    rw [List.length_set]
    exact h.length_underWay
  ahead := h.ahead
  balance _ := by
    rw [List.length_set]
    exact h.balance hopen
  completed {j r} hj := by
    rw [List.getElem?_set] at hj
    split_ifs at hj with hij
    · obtain rfl := hij
      obtain rfl := Option.some.inj (Option.some.inj hj)
      exact hresult
    · exact h.completed hj
  not_lost := h.not_lost
  remaining := h.remaining
  settled := h.settled
  lost := h.lost

/-- Taking a result that is no loss: what is still to be taken starts one file later. -/
theorem Sound.count (h : w.Sound room results) {result : FileResult}
    {rest : List (Option FileResult)} (hopen : w.answer = none)
    (holdest : w.underWay = some result :: rest) (hresult : ∀ message, result ≠ .lost message)
    {o : UploadOutcome}
    (hcollect : ∀ results, w.outcome.collect (result :: results) = o.collect results) :
    Sound room results { w with taken := w.taken + 1, underWay := rest, outcome := o } := by
  have hfront : results[w.taken]? = some result := h.completed (i := 0) (by rw [holdest]; rfl)
  have hbalance := h.balance hopen
  have hlength := h.length_underWay
  rw [holdest, List.length_cons] at hbalance hlength
  refine { h with
    length_underWay := by dsimp only; omega
    ahead := by dsimp only; omega
    balance := fun _ => by dsimp only; omega
    completed := ?_, not_lost := ?_, remaining := ?_
    lost := fun hanswer => ?_ }
  · intro i r hi
    dsimp only at hi ⊢
    rw [Nat.add_assoc, Nat.add_comm 1 i]
    exact h.completed (by rw [holdest]; exact hi)
  · intro i hi message
    rcases Nat.lt_succ_iff_lt_or_eq.mp hi with hi | rfl
    · exact h.not_lost i hi message
    · rw [hfront]
      exact fun heq => hresult message (Option.some.inj heq)
  · intro _
    rw [← h.remaining hopen, List.drop_eq_getElem?_toList_append (i := w.taken), hfront]
    exact (hcollect _).symm
  · rw [show w.answer = none from hopen] at hanswer
    cases hanswer

/-- A loss that is taken is the first one, and so it is the sequential answer. -/
theorem Sound.lose (h : w.Sound room results) {message : String}
    {rest : List (Option FileResult)} (holdest : w.underWay = some (.lost message) :: rest) :
    Sound room results { w with underWay := [], answer := some (.error message) } := by
  have hfront : results[w.taken]? = some (.lost message) :=
    h.completed (i := 0) (by rw [holdest]; rfl)
  refine { h with
    length_underWay := Nat.zero_le _
    balance := fun hanswer => ?_, remaining := fun hanswer => ?_
    completed := fun hi => by cases hi
    settled := fun hanswer => ?_, lost := fun hanswer => ?_ }
  · cases hanswer
  · cases hanswer
  · rw [← Option.some.inj hanswer]
    exact UploadOutcome.collect_eq_error ⟨hfront, h.not_lost⟩
  · obtain rfl := Except.error.inj (Option.some.inj hanswer)
    exact hfront

theorem Sound.take (h : w.Sound room results) {result : FileResult}
    {rest : List (Option FileResult)} (hopen : w.answer = none)
    (holdest : w.underWay = some result :: rest) : (w.take rest result).Sound room results := by
  cases result with
  | uploaded => exact h.count hopen holdest (by simp) fun _ => rfl
  | rejected message => exact h.count hopen holdest (by simp) fun _ => rfl
  | lost message => exact h.lose holdest

theorem Sound.finish (h : w.Sound room results) (hopen : w.answer = none)
    (hstarted : w.started.length = results.length) (hnone : w.underWay = []) :
    Sound room results { w with answer := some (.ok w.outcome) } := by
  -- nothing is under way, so all results were taken and none remains
  have htaken : w.taken = results.length := by
    have hbalance := h.balance hopen
    rw [hnone, List.length_nil] at hbalance
    omega
  have hsettled : w.outcome.collect [] = UploadOutcome.collect {} results := by
    rw [← h.remaining hopen, htaken, List.drop_length]
  refine { h with
    balance := fun hanswer => ?_, remaining := fun hanswer => ?_
    settled := fun hanswer => ?_, lost := fun hanswer => ?_ }
  · cases hanswer
  · cases hanswer
  · rw [← Option.some.inj hanswer]
    exact hsettled.symm
  · cases hanswer

theorem Sound.step (h : w.Sound room results) (hstep : Step room results w w') :
    w'.Sound room results := by
  cases hstep with
  | start hopen hroom hnext => exact h.start hopen hroom hnext
  | complete hopen _ hresult => exact h.complete hopen hresult
  | take hopen holdest => exact h.take hopen holdest
  | finish hopen hstarted hnone => exact h.finish hopen hstarted hnone

theorem Reaches.sound (h : w.Reaches room results) : w.Sound room results := by
  induction h with
  | refl => exact sound_empty
  | tail _ hstep ih => exact ih.step hstep

/-! ### Coming to an answer -/

/-- A batch without an answer can go on: it can start a file, or the oldest file under way can be
completed or taken, or all files were taken. -/
theorem Sound.exists_step (h : w.Sound room results) (hroom : 0 < room) (hopen : w.answer = none) :
    ∃ w', Step room results w w' := by
  have hbalance := h.balance hopen
  cases hunderWay : w.underWay with
  | nil =>
    rcases Nat.lt_or_ge w.started.length results.length with hnext | hall
    · exact ⟨_, .start hopen (by rwa [hunderWay]) hnext⟩
    · exact ⟨_, .finish hopen (Nat.le_antisymm h.started_le hall) hunderWay⟩
  | cons oldest rest =>
    cases oldest with
    | none =>
      have hlt : w.taken < results.length := by
        have hle := h.started_le
        rw [hunderWay, List.length_cons] at hbalance
        omega
      exact ⟨_, .complete (i := 0) hopen (by rw [hunderWay]; rfl)
        (List.getElem?_eq_getElem hlt)⟩
    | some result => exact ⟨_, .take hopen hunderWay⟩

/-- What is still to be done: each file is started, completed and taken, and then the batch
answers. -/
def work (results : List FileResult) (w : UploadWindow) : Nat :=
  3 * (results.length - w.started.length) + w.underWay.length + w.underWay.count none
    + (if w.answer = none then 1 else 0)

theorem Step.work_lt (h : Step room results w w') : w'.work results < w.work results := by
  cases h with
  | start hopen _ hnext =>
    simp only [work, List.length_append, List.length_singleton, List.count_append,
      List.count_singleton_self, hopen, if_true]
    omega
  | @complete i result hopen hfile =>
    obtain ⟨hi, heq⟩ := List.getElem?_eq_some_iff.mp hfile
    have hpos : 0 < w.underWay.count none := by
      rw [List.count_pos_iff, ← heq]
      exact List.getElem_mem hi
    have hcount : (w.underWay.set i (some result)).count none = w.underWay.count none - 1 := by
      rw [List.count_set hi, heq]
      simp
    simp only [work, List.length_set, hcount, hopen, if_true]
    omega
  | @take result rest hopen holdest =>
    cases result <;>
      simp only [work, UploadWindow.take, holdest, hopen, List.length_cons, List.length_nil,
        List.count_nil, List.count_cons, reduceCtorEq, if_true, if_false] <;>
      omega
  | finish hopen _ hnone =>
    simp only [work, hnone, hopen, if_true, reduceCtorEq, if_false]
    omega

/-- No sequence of steps goes on for ever. -/
theorem exists_not_step (room : Nat) (results : List FileResult) (run : Nat → UploadWindow) :
    ∃ k, ¬ Step room results (run k) (run (k + 1)) := by
  by_contra hall
  simp only [not_exists, not_not] at hall
  have hwork : ∀ k, (run k).work results + k ≤ (run 0).work results := by
    intro k
    induction k with
    | zero => exact Nat.le_refl _
    | succ k ih =>
      have hlt := (hall k).work_lt
      omega
  have hlast := hwork ((run 0).work results + 1)
  omega

end UploadWindow

namespace Client

/-- The files that are under way at a time are as many as the configuration says, but at least
one. -/
theorem concurrency_of_ofConfig {config : ClientConfig} {client : Client}
    (h : ofConfig config = .ok client) : client.concurrency = max config.concurrency 1 := by
  rw [eq_of_ofConfig h]

/-- A batch whose files become what `results` says, with as many under way at a time as the client
was made for. In every state that it can reach, no file was started twice and the files under way
are no more than that. If there is an answer, it is the one of taking the results from left to
right: without a loss the counts and the messages in order, else the first loss; and it is what the
client answers that uploads one file after the other. A batch that was ended by the loss of a file
started no file that is a window or more behind it. A batch without an answer can go on, and it
does not go on for ever. -/
theorem answer_of_reaches {config : ClientConfig} {client : Client}
    (hclient : ofConfig config = .ok client) (results : List FileResult) :
    (∀ w, UploadWindow.Reaches client.concurrency results w →
      w.started.Nodup ∧ w.underWay.length ≤ max config.concurrency 1 ∧
      (∀ answer, w.answer = some answer →
        ((∀ message, .lost message ∉ results) → answer = .ok {
          successful := results.count .uploaded
          failed := (results.filterMap FileResult.rejection?).length
          errors := results.filterMap FileResult.rejection? }) ∧
        (∀ i message, FirstLoss results i message → answer = .error message) ∧
        ∀ (σ : Type) (server : Server σ) (fs : FileSystem) (kind : UploadKind) (paths : List Path)
          (link : Link σ), client.fileResults server fs kind paths link = results →
            (client.uploadBatch server fs kind paths link).1 = answer) ∧
      (∀ message, w.answer = some (.error message) →
        ∃ i, FirstLoss results i message ∧
          ∀ j ∈ w.started, j < i + max config.concurrency 1) ∧
      (w.answer = none → ∃ w', UploadWindow.Step client.concurrency results w w')) ∧
    ∀ run : Nat → UploadWindow,
      ∃ k, ¬ UploadWindow.Step client.concurrency results (run k) (run (k + 1)) := by
  rw [concurrency_of_ofConfig hclient]
  refine ⟨?_, UploadWindow.exists_not_step _ results⟩
  intro w hw
  have hsound := hw.sound
  refine ⟨?_, hsound.length_underWay, ?_, ?_, hsound.exists_step (by omega)⟩
  · rw [hsound.started_eq]
    exact List.nodup_range
  · intro answer hanswer
    have hcollect := hsound.settled hanswer
    refine ⟨fun hnone => ?_, fun i message hfirst => ?_, ?_⟩
    · rw [← hcollect, UploadOutcome.collect_eq_ok hnone]
      simp
    · rw [← hcollect, UploadOutcome.collect_eq_error hfirst]
    · intro σ server fs kind paths link hresults
      rw [uploadBatch, uploadFrom_eq_collect, hresults, hcollect]
  · intro message hanswer
    refine ⟨w.taken, ⟨hsound.lost hanswer, hsound.not_lost⟩, ?_⟩
    intro j hj
    rw [hsound.started_eq, List.mem_range] at hj
    have hahead := hsound.ahead
    omega

/-- A client that has two files under way at a time. -/
def twoAtATime : ClientConfig where
  baseUrl := defaultBackendUrl
  projectId := ""
  concurrency := 2
  knowledgeType := ""
  tags := []

/-- One file is refused, at the next the backend is lost, and the last would be taken. -/
def lossAfterRefusal : List FileResult :=
  [.rejected "a.md: refused", .lost "gone", .uploaded]

/-- Two files are started, the second is completed before the first, and the third is started before
the loss is taken. -/
theorem answer_of_reaches_lossAfterRefusal :
    ∃ client w, ofConfig twoAtATime = .ok client ∧
      UploadWindow.Reaches client.concurrency lossAfterRefusal w ∧
      w.started = [0, 1, 2] ∧ w.answer = some (.error "gone") ∧
      ∃ i, FirstLoss lossAfterRefusal i "gone" ∧ ∀ j ∈ w.started, j < i + 2 := by
  have hclient : ∃ client, ofConfig twoAtATime = .ok client := ⟨_, rfl⟩
  obtain ⟨client, hclient⟩ := hclient
  have hroom : client.concurrency = 2 := concurrency_of_ofConfig hclient
  have hstarted : UploadWindow.Reaches client.concurrency lossAfterRefusal
      { started := [0, 1], underWay := [none, none] } := by
    rw [hroom]
    exact .tail (.tail .refl (.start rfl (by decide) (by decide)))
      (.start rfl (by decide) (by decide))
  have hcompleted : UploadWindow.Reaches client.concurrency lossAfterRefusal
      { started := [0, 1], underWay := [some (.rejected "a.md: refused"), some (.lost "gone")] } :=
    .tail (.tail hstarted (.complete (i := 1) rfl rfl rfl)) (.complete (i := 0) rfl rfl rfl)
  have hrefilled : UploadWindow.Reaches client.concurrency lossAfterRefusal
      { started := [0, 1, 2], taken := 1, underWay := [some (.lost "gone"), none]
        outcome := ⟨0, 1, ["a.md: refused"]⟩ } := by
    refine .tail (.tail hcompleted (.take rfl rfl)) (.start rfl ?_ (by decide))
    rw [hroom]
    decide
  have hended : UploadWindow.Reaches client.concurrency lossAfterRefusal
      { started := [0, 1, 2], taken := 1, outcome := ⟨0, 1, ["a.md: refused"]⟩
        answer := some (.error "gone") } :=
    .tail hrefilled (.take (r := .lost "gone") rfl rfl)
  obtain ⟨-, -, -, hloss, -⟩ := (answer_of_reaches hclient lossAfterRefusal).1 _ hended
  exact ⟨client, _, hclient, hended, rfl, rfl, hloss "gone" rfl⟩

end Client

end KnowledgeImport
