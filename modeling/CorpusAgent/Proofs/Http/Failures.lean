import CorpusAgent.Http.Router
import CorpusAgent.Proofs.Retrieval.Raised

/-!
# Failures as they are answered

How the outcome of a request shows in the answer.

* `Decodes`: a retrieval request is read from what was sent.
* `Answered`: when a request is not found, invalid, failed or served, and what is answered then.
* `retrieve_answered`: every request is answered in this way, and all failed runs alike.
-/

namespace CorpusAgent.Http

open Retrieval

/-- A request is read from what was sent to the route of retrievals. -/
structure Decodes (q : Inquiry) (r : Retrieval.Request) : Prop where
  target : Route.ofTarget? q.target = some .retrieve
  method : q.method = "POST"
  contentType : q.contentType.any MediaType.isJson = true
  size : q.body.utf8ByteSize ≤ maxBodySize
  body : requestOf q.body = .ok r

/-- The status and the text of an answer. -/
def Answer.sent (a : Answer) : Nat × Option String := (a.status, a.body.map Json.print)

section

variable (corpora : List Corpus) (collaborators : Collaborators) (r : Retrieval.Request)

/-- No corpus has the id. -/
def Unknown : Prop := ∀ c ∈ corpora, c.id ≠ r.corpusId

/-- There is a corpus with the id, but the conversation is empty or contains the result of a
tool. -/
def Invalid : Prop :=
  (∃ c ∈ corpora, c.id = r.corpusId) ∧ (r.messages = [] ∨ ∃ m ∈ r.messages, m.role = .tool)

/-- The run of a request fails. -/
def RunFails : Prop :=
  ∃ text workflow, (retrieve corpora collaborators r).result = .error (.runFailed text workflow)

/-- How a request is answered. -/
structure Answered : Prop where
  notFound : (∃ text, (retrieve corpora collaborators r).result = .error (.notFound text)) ↔
    Unknown corpora r
  invalid : (∃ text, (retrieve corpora collaborators r).result = .error (.invalidRequest text)) ↔
    Invalid corpora r
  /-- In both cases no collaborator has been called. -/
  untouched : Unknown corpora r ∨ Invalid corpora r → (retrieve corpora collaborators r).calls = []
  /-- Every other failure is that of a run, and the errors of the run stay within it. -/
  contained : ¬(Unknown corpora r ∨ Invalid corpora r) → ∃ c ∈ corpora, c.id = r.corpusId ∧
    Contained ⟨c, lenientFilter r.filter, collaborators⟩ (conversation c r.messages)
      (retrieve corpora collaborators r)
  /-- The status tells which case it is. -/
  status : ∀ q, Decodes q r →
    (Unknown corpora r ∧ (serve corpora collaborators q).status = 404) ∨
    (Invalid corpora r ∧ (serve corpora collaborators q).status = 400) ∨
    (¬(Unknown corpora r ∨ Invalid corpora r) ∧
      ((RunFails corpora collaborators r ∧ (serve corpora collaborators q).status = 502) ∨
        ((∃ result, (retrieve corpora collaborators r).result = .ok result) ∧
          (serve corpora collaborators q).status = 200)))
  /-- Failed runs are answered alike, whatever the corpora, the collaborators and the requests. -/
  alike : ∀ corpora' collaborators' r' q q', Decodes q r → Decodes q' r' →
    RunFails corpora collaborators r → RunFails corpora' collaborators' r' →
    (serve corpora collaborators q).sent = (serve corpora' collaborators' q').sent

end

section

variable {corpora : List Corpus} {collaborators : Collaborators} {r : Retrieval.Request}
  {q : Inquiry}

/-- A request of which no corpus has the id is not found, an invalid one is refused, and for any
other there is a run. -/
theorem retrieve_outcome (corpora : List Corpus) (collaborators : Collaborators)
    (r : Retrieval.Request) :
    (Unknown corpora r ∧ ∃ text, retrieve corpora collaborators r = ⟨.error (.notFound text), []⟩) ∨
    (Invalid corpora r ∧
      ∃ text, retrieve corpora collaborators r = ⟨.error (.invalidRequest text), []⟩) ∨
    (¬(Unknown corpora r ∨ Invalid corpora r) ∧ ∃ c ∈ corpora, c.id = r.corpusId ∧
      retrieve corpora collaborators r = Setting.outcome
        ⟨c, lenientFilter r.filter, collaborators⟩ (conversation c r.messages)) := by
  cases hfind : corpora.find? fun c => c.id == r.corpusId with
  | none =>
    have hnone : Unknown corpora r := fun c hc => by
      simpa using List.find?_eq_none.mp hfind c hc
    refine .inl ⟨hnone, ?_⟩
    rw [retrieve, hfind]
    exact ⟨_, rfl⟩
  | some c =>
    have hc : c ∈ corpora := List.mem_of_find?_eq_some hfind
    have hid : c.id = r.corpusId := by
      simpa using List.find?_some hfind
    have hknown : ¬Unknown corpora r := fun hnone => hnone c hc hid
    right
    rw [retrieve, hfind]
    by_cases hempty : r.messages.isEmpty = true
    · refine .inl ⟨⟨⟨c, hc, hid⟩, .inl (List.isEmpty_iff.mp hempty)⟩, ?_⟩
      simp only [opening, if_pos hempty]
      exact ⟨_, rfl⟩
    · by_cases htool : (r.messages.any fun m => m.role = .tool) = true
      · refine .inl ⟨⟨⟨c, hc, hid⟩, .inr (by simpa using htool)⟩, ?_⟩
        simp only [opening, if_neg hempty, if_pos htool]
        exact ⟨_, rfl⟩
      · refine .inr ⟨?_, c, hc, hid, ?_⟩
        · rintro (hnone | ⟨-, hmessages | hmessages⟩)
          · exact hknown hnone
          · exact hempty (List.isEmpty_iff.mpr hmessages)
          · exact htool (by simpa using hmessages)
        · simp only [opening, if_neg hempty, if_neg htool]
          rfl

theorem outcome_result (env : Setting) (start : List Message) :
    (∃ result, (env.outcome start).result = .ok result) ∨
      ∃ text workflow, (env.outcome start).result = .error (.runFailed text workflow) := by
  rw [Setting.outcome]
  rcases env.run.run.run { transcript := start } with ⟨e | answer, t⟩
  · exact .inr ⟨_, _, rfl⟩
  · exact .inl ⟨_, rfl⟩

theorem serve_eq_of_decodes (h : Decodes q r) (corpora : List Corpus)
    (collaborators : Collaborators) :
    serve corpora collaborators q = .ofOutcome (retrieve corpora collaborators r) := by
  have hmethod : Route.retrieve.methods.contains q.method = true := by
    rw [h.method]
    rfl
  rw [serve, h.target]
  simp only [hmethod, if_true]
  rw [serveRetrieval, h.contentType, Bool.not_true, if_neg Bool.false_ne_true,
    if_neg (Nat.not_lt.mpr h.size), h.body]

theorem sent_of_runFails (h : Decodes q r) (hfails : RunFails corpora collaborators r) :
    (serve corpora collaborators q).sent =
      (502, some (Json.ofMembers [("error_code", .text "retrieval_failed"),
        ("message", .text "The retrieval run failed. Please try again.")]).print) := by
  obtain ⟨text, workflow, hresult⟩ := hfails
  rw [serve_eq_of_decodes h, Answer.ofOutcome, hresult]
  rfl

theorem sent_eq_sent {corpora' : List Corpus} {collaborators' : Collaborators}
    {r' : Retrieval.Request} {q' : Inquiry} (h : Decodes q r) (h' : Decodes q' r')
    (hfails : RunFails corpora collaborators r) (hfails' : RunFails corpora' collaborators' r') :
    (serve corpora collaborators q).sent = (serve corpora' collaborators' q').sent :=
  (sent_of_runFails h hfails).trans (sent_of_runFails h' hfails').symm

/-! ### How requests are answered -/

theorem answered_of_unknown {text : String} (hunknown : Unknown corpora r)
    (houtcome : retrieve corpora collaborators r = ⟨.error (.notFound text), []⟩) :
    Answered corpora collaborators r where
  notFound := by
    rw [houtcome]
    exact ⟨fun _ => hunknown, fun _ => ⟨text, rfl⟩⟩
  invalid := by
    rw [houtcome]
    refine iff_of_false (fun ⟨_, h⟩ => by cases h) ?_
    rintro ⟨⟨c, hc, hid⟩, -⟩
    exact hunknown c hc hid
  untouched _ := by rw [houtcome]
  contained h := absurd (.inl hunknown) h
  status q hq := by
    rw [serve_eq_of_decodes hq, houtcome]
    exact .inl ⟨hunknown, rfl⟩
  alike _ _ _ _ _ := sent_eq_sent

theorem answered_of_invalid {text : String} (hinvalid : Invalid corpora r)
    (houtcome : retrieve corpora collaborators r = ⟨.error (.invalidRequest text), []⟩) :
    Answered corpora collaborators r where
  notFound := by
    rw [houtcome]
    refine iff_of_false (fun ⟨_, h⟩ => by cases h) fun hunknown => ?_
    obtain ⟨⟨c, hc, hid⟩, -⟩ := hinvalid
    exact hunknown c hc hid
  invalid := by
    rw [houtcome]
    exact ⟨fun _ => hinvalid, fun _ => ⟨text, rfl⟩⟩
  untouched _ := by rw [houtcome]
  contained h := absurd (.inr hinvalid) h
  status q hq := by
    rw [serve_eq_of_decodes hq, houtcome]
    exact .inr (.inl ⟨hinvalid, rfl⟩)
  alike _ _ _ _ _ := sent_eq_sent

theorem answered_of_run {c : Corpus} (hrun : ¬(Unknown corpora r ∨ Invalid corpora r))
    (hc : c ∈ corpora) (hid : c.id = r.corpusId)
    (houtcome : retrieve corpora collaborators r =
      Setting.outcome ⟨c, lenientFilter r.filter, collaborators⟩ (conversation c r.messages)) :
    Answered corpora collaborators r where
  notFound := by
    refine iff_of_false ?_ fun hunknown => hrun (.inl hunknown)
    rintro ⟨text, hresult⟩
    rw [houtcome] at hresult
    rcases outcome_result _ _ with ⟨_, hother⟩ | ⟨_, _, hother⟩ <;> cases hresult.symm.trans hother
  invalid := by
    refine iff_of_false ?_ fun hinvalid => hrun (.inr hinvalid)
    rintro ⟨text, hresult⟩
    rw [houtcome] at hresult
    rcases outcome_result _ _ with ⟨_, hother⟩ | ⟨_, _, hother⟩ <;> cases hresult.symm.trans hother
  untouched h := absurd h hrun
  contained _ := ⟨c, hc, hid, houtcome ▸ outcome_contained _ _⟩
  status q hq := by
    refine .inr (.inr ⟨hrun, ?_⟩)
    rw [serve_eq_of_decodes hq, RunFails, houtcome, Answer.ofOutcome]
    rcases outcome_result _ _ with ⟨result, hresult⟩ | ⟨text, workflow, hresult⟩
    · rw [hresult]
      exact .inr ⟨⟨result, rfl⟩, rfl⟩
    · rw [hresult]
      exact .inl ⟨⟨text, workflow, rfl⟩, rfl⟩
  alike _ _ _ _ _ := sent_eq_sent

end

/-- **Errors stay within the run.**  A request is refused before any call of a collaborator, or all
its failures are failures of its run, each with the text of the one error that came up; and of a
failed run the caller learns nothing but that it failed. -/
theorem retrieve_answered (corpora : List Corpus) (collaborators : Collaborators)
    (r : Retrieval.Request) : Answered corpora collaborators r := by
  rcases retrieve_outcome corpora collaborators r with ⟨hunknown, text, houtcome⟩ |
    ⟨hinvalid, text, houtcome⟩ | ⟨hrun, c, hc, hid, houtcome⟩
  · exact answered_of_unknown hunknown houtcome
  · exact answered_of_invalid hinvalid houtcome
  · exact answered_of_run hrun hc hid houtcome

/-- A corpus, and a question about it as it is sent. -/
def archive : Corpus := ⟨"archive", none, none, {}, {}, []⟩

def archiveRequest : Retrieval.Request := ⟨"archive", [⟨.user, "Which year?"⟩], none⟩

def archiveInquiry : Inquiry where
  method := "POST"
  target := "/v1/retrieve"
  contentType := some "application/json"
  body := "[\"archive\",[[\"user\",\"Which year?\"]]]"

/-- A model that replies with a completion first and fails later. -/
def failingAfter (first : Except ServiceError Completion) : Script where
  completions := [first, .error (.notFound "no such model")]
  embeddings := []
  counts := []
  documents := []
  passages := []

/-- The model searches by metadata before it fails. -/
def searchesFirst : Script :=
  failingAfter (.ok ⟨none, [⟨"1", "findDocumentsByMetadata", ""⟩]⟩)

/-- The model calls a tool that does not exist. -/
def strays : Script := failingAfter (.ok ⟨none, [⟨"1", "browse", ""⟩]⟩)

/-- A run that fails after a search and one that fails by an unknown tool are answered alike. -/
theorem retrieve_answered_archive : Decodes archiveInquiry archiveRequest ∧
    RunFails [archive] searchesFirst.collaborators archiveRequest ∧
    RunFails [archive] strays.collaborators archiveRequest ∧
    (serve [archive] searchesFirst.collaborators archiveInquiry).sent =
      (serve [archive] strays.collaborators archiveInquiry).sent := by
  have hdecodes : Decodes archiveInquiry archiveRequest :=
    ⟨by decide +kernel, rfl, by decide +kernel, by decide +kernel, by rfl⟩
  have hsearches : RunFails [archive] searchesFirst.collaborators archiveRequest := ⟨_, _, rfl⟩
  have hstrays : RunFails [archive] strays.collaborators archiveRequest := ⟨_, _, rfl⟩
  exact ⟨hdecodes, hsearches, hstrays, (retrieve_answered [archive] searchesFirst.collaborators
    archiveRequest).alike _ _ _ _ _ hdecodes hdecodes hsearches hstrays⟩

end CorpusAgent.Http
