import KnowledgeImport.Proofs.Backend.Requests
import KnowledgeImport.Proofs.FileTree.WellFormed
import KnowledgeImport.Proofs.Json.Acceptance
import KnowledgeImport.Proofs.Json.Records
import KnowledgeImport.Proofs.Text.Encoding

/-!
# The tags of an upload

Every request of a batch is the form of one of its files (`Client.exists_form_of_sends`), and one
part of the form holds the tags as a JSON text.  That text is read back as the list that was
configured, so clients with other tags send other texts (`Client.tags_read_back`).
-/

namespace KnowledgeImport

open Text Json

variable {σ : Type}

/-! ### The requests of a batch -/

/-- What the parts with a name hold. -/
def Request.contents (r : Request) (name : String) : List (List Octet) :=
  (r.parts.filter (·.name = name)).map (·.content)

namespace Client

variable {client : Client} {server : Server σ} {fs : FileSystem} {kind : UploadKind}

/-- Whatever is sent for a file is its form. -/
theorem exchanges_uploadFile (client : Client) (server : Server σ) (fs : FileSystem)
    (kind : UploadKind) (path : Path) (link : Link σ) :
    ∃ sent, (client.uploadFile server fs kind path link).2.exchanges = link.exchanges ++ sent ∧
      ∀ x ∈ sent, ∃ url content, x.1 = client.uploadRequest url kind path content := by
  have hnothing : link.exchanges = link.exchanges ++ [] := (List.append_nil _).symm
  rw [uploadFile]
  cases fs.readFile path with
  | error cause => exact ⟨[], hnothing, List.forall_mem_nil _⟩
  | ok content =>
    dsimp only
    cases haddress : client.address? uploadPath with
    | none =>
      obtain ⟨cause, hcause, hrequest⟩ := request_of_address?_eq_none haddress server .post
        (client.form kind path content.toOctets) link
      rw [hrequest]
      simp only [hcause]
      exact ⟨[], hnothing, List.forall_mem_nil _⟩
    | some url =>
      rw [request_eq haddress, ← uploadRequest, Link.send_eq]
      obtain ⟨reply, state⟩ := server (client.uploadRequest url kind path content) link.state
      refine ⟨[(client.uploadRequest url kind path content, reply)], ?_,
        List.forall_mem_singleton.mpr ⟨url, content, rfl⟩⟩
      cases reply <;> rfl

/-- So is all that is sent in a batch. -/
theorem exchanges_uploadFrom (client : Client) (server : Server σ) (fs : FileSystem)
    (kind : UploadKind) (outcome : UploadOutcome) (paths : List Path) (link : Link σ) :
    ∃ sent, (client.uploadFrom server fs kind outcome paths link).2.exchanges
        = link.exchanges ++ sent ∧
      ∀ x ∈ sent, ∃ url path content, x.1 = client.uploadRequest url kind path content := by
  induction paths generalizing outcome link with
  | nil => exact ⟨[], (List.append_nil _).symm, List.forall_mem_nil _⟩
  | cons path paths ih =>
    obtain ⟨sent, hsent, hform⟩ := exchanges_uploadFile client server fs kind path link
    have hfirst : ∀ x ∈ sent, ∃ url path content,
        x.1 = client.uploadRequest url kind path content := by
      intro x hx
      obtain ⟨url, content, heq⟩ := hform x hx
      exact ⟨url, path, content, heq⟩
    rw [uploadFrom]
    obtain ⟨result, next, hfile⟩ : ∃ result next,
        client.uploadFile server fs kind path link = (result, next) := ⟨_, _, rfl⟩
    rw [hfile] at hsent ⊢
    -- unless the backend is gone, the other files add theirs behind it
    have hrest (o : UploadOutcome) : ∃ all,
        (client.uploadFrom server fs kind o paths next).2.exchanges = link.exchanges ++ all ∧
          ∀ x ∈ all, ∃ url path content, x.1 = client.uploadRequest url kind path content := by
      obtain ⟨more, hmore, hforms⟩ := ih o next
      refine ⟨sent ++ more, ?_, List.forall_mem_append.mpr ⟨hfirst, hforms⟩⟩
      rw [hmore, hsent, List.append_assoc]
    cases result with
    | uploaded => exact hrest _
    | rejected message => exact hrest _
    | lost message => exact ⟨sent, hsent, hfirst⟩

/-- The client sends this request in some batch. -/
def Sends (client : Client) (r : Request) : Prop :=
  ∃ (σ : Type) (server : Server σ) (fs : FileSystem) (kind : UploadKind) (paths : List Path)
    (link : Link σ) (sent : List (Request × Reply)) (reply : Reply),
    (client.uploadBatch server fs kind paths link).2.exchanges = link.exchanges ++ sent ∧
      (r, reply) ∈ sent

theorem exists_form_of_sends {r : Request} (h : client.Sends r) :
    ∃ url kind path content, r = client.uploadRequest url kind path content := by
  obtain ⟨σ, server, fs, kind, paths, link, sent, reply, hsent, hmem⟩ := h
  obtain ⟨all, hall, hforms⟩ := client.exchanges_uploadFrom server fs kind {} paths link
  -- what stands behind the exchanges of before is what was sent
  obtain rfl : sent = all := by
    rw [uploadBatch] at hsent
    rwa [hsent, List.append_cancel_left_eq] at hall
  obtain ⟨url, path, content, heq⟩ := hforms _ hmem
  exact ⟨url, kind, path, content, heq⟩

/-! ### The tags -/

/-- The tags that are configured, behind that of the project. -/
def configuredTags (client : Client) : Value :=
  .array (.text ("project:" ++ client.projectId) :: client.tags.map .text)

/-- One part of a form holds the tags. -/
theorem contents_tags_of_sends {r : Request} (h : client.Sends r) :
    r.contents "tags" = [encode client.tagsJson] := by
  obtain ⟨url, kind, path, content, rfl⟩ := exists_form_of_sends h
  cases kind <;> simp [Request.contents, uploadRequest, form]

theorem ofString?_tagsJson (client : Client) :
    Value.ofString? client.tagsJson = some client.configuredTags :=
  Value.ofString?_compact_texts _

theorem tagsJson_eq_iff {other : Client} :
    other.tagsJson = client.tagsJson ↔
      other.projectId = client.projectId ∧ other.tags = client.tags := by
  constructor
  · intro h
    have hread := other.ofString?_tagsJson
    rw [h, ofString?_tagsJson] at hread
    simp only [configuredTags, Option.some.injEq, Value.array.injEq, List.cons.injEq,
      Value.text.injEq, String.append_right_inj] at hread
    exact ⟨hread.1.symm, List.map_injective_iff.mpr (fun _ _ => Value.text.inj) hread.2.symm⟩
  · rintro ⟨hproject, htags⟩
    rw [tagsJson, tagsJson, hproject, htags]

/-- The text of the tags is a JSON text, and it is read back as the tag of the project and the
configured ones in their order; and this is what every upload has in its only part for tags. So
clients send the same only for the same project and the same tags. -/
theorem tags_read_back (client : Client) :
    client.configuredTags.SpelledBy client.tagsJson ∧
    (decode? (encode client.tagsJson)).bind Value.ofString? = some client.configuredTags ∧
    (∀ r, client.Sends r → r.contents "tags" = [encode client.tagsJson]) ∧
    ∀ other : Client,
      (other.tagsJson = client.tagsJson ↔
        other.projectId = client.projectId ∧ other.tags = client.tags) ∧
      ∀ r r', client.Sends r → other.Sends r' → (r'.contents "tags" = r.contents "tags" ↔
        other.projectId = client.projectId ∧ other.tags = client.tags) := by
  have hread := client.ofString?_tagsJson
  refine ⟨(Value.ofString?_eq_some_iff.mp hread).1, ?_, fun r => contents_tags_of_sends,
    fun other => ⟨tagsJson_eq_iff, fun r r' hr hr' => ?_⟩⟩
  · rw [decode?_encode, Option.bind_some, hread]
  · rw [contents_tags_of_sends hr, contents_tags_of_sends hr', List.cons_eq_cons,
      encode_injective.eq_iff, tagsJson_eq_iff]
    exact and_iff_left rfl

/-- A client whose project and tags hold quotes, backslashes, control characters and characters of
four octets, with a tag twice and one like that of a project. -/
def awkwardlyTagged : Client where
  baseUrl := defaultBackendUrl
  projectId := "\"\\\x01😀"
  concurrency := 1
  knowledgeType := ""
  tags := ["", "\",\"", "\n", "\n", "project:é"]

/-- The same client without the second of two equal tags. -/
def taggedOnce : Client where
  baseUrl := defaultBackendUrl
  projectId := awkwardlyTagged.projectId
  concurrency := 1
  knowledgeType := ""
  tags := ["", "\",\"", "\n", "project:é"]

theorem tags_read_back_awkwardlyTagged :
    ∃ r r', awkwardlyTagged.Sends r ∧ taggedOnce.Sends r' ∧
      r.contents "tags" = [encode awkwardlyTagged.tagsJson] ∧
      r'.contents "tags" ≠ r.contents "tags" := by
  obtain ⟨content, hread⟩ : ∃ content,
      readmeAndSource.readFile (Path.ofString "/README.md") = .ok content := ⟨.octets [], by cbv⟩
  have hsends {client : Client} (haddress : ∃ url, client.address? uploadPath = some url) :
      ∃ r, client.Sends r := by
    obtain ⟨url, haddress⟩ := haddress
    refine ⟨client.uploadRequest url .documents (Path.ofString "/README.md") content, Unit, willing,
      readmeAndSource, .documents, [Path.ofString "/README.md"], { state := () },
      [(_, .response providerNamed)], _, ?_, List.mem_singleton_self _⟩
    rw [uploadBatch, uploadFrom, uploadFile, hread]
    dsimp only
    rw [request_eq haddress]
    rfl
  obtain ⟨r, hr⟩ : ∃ r, awkwardlyTagged.Sends r := hsends ⟨_, rfl⟩
  obtain ⟨r', hr'⟩ : ∃ r, taggedOnce.Sends r := hsends ⟨_, rfl⟩
  obtain ⟨-, -, hcontents, hother⟩ := awkwardlyTagged.tags_read_back
  refine ⟨r, r', hr, hr', hcontents r hr, fun heq => ?_⟩
  have htags := (((hother taggedOnce).2 r r' hr hr').mp heq).2
  revert htags
  decide

end Client

end KnowledgeImport
