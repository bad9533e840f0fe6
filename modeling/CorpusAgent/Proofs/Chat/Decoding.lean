import CorpusAgent.Chat.Completion
import CorpusAgent.Proofs.Except
import CorpusAgent.Proofs.Json.Members
import CorpusAgent.Proofs.Lists

/-!
# Reading the model's answers

What a completion says is a relation between its first message and what is read from it: `Says`.

* `ToolCall.decode_eq_ok_iff`: a call is read as what it requests, if it has an id and a name.
* `ToolCall.decode_eq_of_spelledOut`: arguments are read as if they were given by their text.
* `Completion.decode_eq_ok_iff`: an answer is read as a whole or not at all.
* `Completion.says_wire`: a message of the program says what it was made of.
* `Completion.decode_inverts_wire`: so what was read from an answer can be sent and read again.
-/

namespace CorpusAgent

open Text (isBlank)

/-! ### Calls -/

/-- The text of arguments.  Nothing and `null` stand for no arguments, any other value for its
text. -/
inductive ArgumentsText : Option Json → String → Prop
  | missing : ArgumentsText none "\x7b\x7d"
  | null : ArgumentsText (some .null) "\x7b\x7d"
  | text (raw : String) : ArgumentsText (some (.text raw)) raw
  | value {v : Json} (hnull : v ≠ .null) (htext : ∀ raw, v ≠ .text raw) :
      ArgumentsText (some v) v.print

theorem exists_argumentsText (v? : Option Json) : ∃ raw, ArgumentsText v? raw := by
  cases v? with
  | none => exact ⟨_, .missing⟩
  | some v =>
    cases v with
    | null => exact ⟨_, .null⟩
    | text raw => exact ⟨_, .text raw⟩
    | _ => exact ⟨_, .value nofun nofun⟩

theorem ArgumentsText.text_eq {v? : Option Json} {raw : String} : ArgumentsText v? raw →
    (match v? with
      | some (.text raw) => raw
      | none => "\x7b\x7d"
      | some .null => "\x7b\x7d"
      | some v => v.print) = raw := by
  intro h
  cases h with
  | missing => rfl
  | null => rfl
  | text raw => rfl
  | value hnull htext =>
    rename_i v
    cases v with
    | null => exact absurd rfl hnull
    | text raw => exact absurd rfl (htext raw)
    | _ => rfl

namespace ToolCall

/-- What an element of the list of calls requests. -/
structure Requested (v : Json) (c : ToolCall) : Prop where
  id : v.member? "id" = some (.text c.id)
  function : ∃ f, v.member? "function" = some f ∧ f.member? "name" = some (.text c.name) ∧
    ArgumentsText (f.member? "arguments") c.arguments

/-- An element has an id and the name of a function. -/
structure Named (v : Json) : Prop where
  id : ∃ id, v.member? "id" = some (.text id)
  function : ∃ f name, v.member? "function" = some f ∧ f.member? "name" = some (.text name)

/-- One element is another one with the arguments given by their text. -/
structure SpelledOut (v w : Json) : Prop where
  id : v.member? "id" = w.member? "id"
  function : (v.member? "function" = none ∧ w.member? "function" = none) ∨
    ∃ f g raw, v.member? "function" = some f ∧ w.member? "function" = some g ∧
      f.member? "name" = g.member? "name" ∧ ArgumentsText (f.member? "arguments") raw ∧
      g.member? "arguments" = some (.text raw)

variable {v w : Json} {c : ToolCall}

theorem decode_of_requested (h : Requested v c) : decode v = .ok c := by
  obtain ⟨hid, f, hf, hname, harguments⟩ := h
  have hid : v.memberText? "id" = some c.id := Json.bind_text?_eq_some_iff.mpr hid
  have hname : f.memberText? "name" = some c.name := Json.bind_text?_eq_some_iff.mpr hname
  rw [decode, hid]
  simp only [hf, hname]
  exact congrArg (fun raw => Except.ok (ToolCall.mk c.id c.name raw)) harguments.text_eq

theorem named_of_decode (h : decode v = .ok c) : Named v := by
  rw [decode] at h
  split at h
  · cases h
  · rename_i id hid
    split at h
    · cases h
    · rename_i f hf
      split at h
      · cases h
      · rename_i name hname
        exact ⟨⟨id, Json.bind_text?_eq_some_iff.mp hid⟩,
          f, name, hf, Json.bind_text?_eq_some_iff.mp hname⟩

theorem exists_requested_iff : (∃ c, Requested v c) ↔ Named v := by
  constructor
  · rintro ⟨c, hid, f, hf, hname, _⟩
    exact ⟨⟨c.id, hid⟩, f, c.name, hf, hname⟩
  · rintro ⟨⟨id, hid⟩, f, name, hf, hname⟩
    obtain ⟨raw, hraw⟩ := exists_argumentsText (f.member? "arguments")
    exact ⟨⟨id, name, raw⟩, hid, f, hf, hname, hraw⟩

/-- A call is read as what it requests, if it has an id and a name. -/
theorem decode_eq_ok_iff : decode v = .ok c ↔ Requested v c := by
  refine ⟨fun h => ?_, decode_of_requested⟩
  obtain ⟨d, hd⟩ := exists_requested_iff.mpr (named_of_decode h)
  obtain rfl : c = d := Except.ok.inj (h.symm.trans (decode_of_requested hd))
  exact hd

/-- Arguments are read as if they were given by their text. -/
theorem decode_eq_of_spelledOut (h : SpelledOut v w) : decode v = decode w := by
  -- an error names the id at most, so both fail in the same way or not at all
  have hid : v.memberText? "id" = w.memberText? "id" := congrArg (·.bind Json.text?) h.id
  rw [decode, decode, hid]
  cases w.memberText? "id" with
  | none => rfl
  | some id =>
    obtain ⟨hv, hw⟩ | ⟨f, g, raw, hv, hw, hname, hf, hg⟩ := h.function
    · rw [hv, hw]
    · have hname : f.memberText? "name" = g.memberText? "name" :=
        congrArg (·.bind Json.text?) hname
      simp only [hv, hw, hname, hg]
      cases g.memberText? "name" with
      | none => rfl
      | some name => exact congrArg (fun raw => Except.ok (ToolCall.mk id name raw)) hf.text_eq

/-- Some endpoints give the arguments as an object. -/
example : decode (.object [("function", .object [("arguments", .object [("answer", .text "x")]),
    ("name", .text "exit")]), ("id", .text "a")]) =
      .ok ⟨"a", "exit", "\x7b\"answer\":\"x\"\x7d"⟩ := rfl

theorem requested_wire (c : ToolCall) : Requested c.wire c where
  id := by
    rw [wire, Json.member?_ofMembers]
    simp [Json.find?]
  function := by
    refine ⟨Json.ofMembers [("name", .text c.name), ("arguments", .text c.arguments)], ?_, ?_, ?_⟩
    · rw [wire, Json.member?_ofMembers]
      simp [Json.find?]
    · rw [Json.member?_ofMembers]
      simp [Json.find?]
    · rw [Json.member?_ofMembers]
      exact .text c.arguments

end ToolCall

/-! ### Answers -/

namespace Completion

/-- The message of an answer is that of its first choice. -/
def FirstMessage (answer message : Json) : Prop :=
  ∃ choice rest, answer.member? "choices" = some (.list (choice :: rest)) ∧
    choice.member? "message" = some message

/-- The elements that stand for calls; without a list of them there are none. -/
inductive CallsOf (message : Json) : List Json → Prop
  | listed {items : List Json} (h : message.member? "tool_calls" = some (.list items)) :
      CallsOf message items
  | unlisted (h : ∀ items, message.member? "tool_calls" ≠ some (.list items)) :
      CallsOf message []

/-- What is read from a message: its words, unless they are blank, and what each of its calls
requests. -/
structure Says (message : Json) (c : Completion) : Prop where
  content : ∀ s, c.content = some s ↔
    message.member? "content" = some (.text s) ∧ isBlank s = false
  calls : ∃ items, CallsOf message items ∧ List.Forall₂ ToolCall.Requested items c.calls

variable {answer message : Json} {c : Completion}

theorem firstMessage?_eq_some_iff :
    firstMessage? answer = some message ↔ FirstMessage answer message := by
  rw [firstMessage?, Option.bind_eq_bind, Option.bind_eq_some_iff]
  simp only [Json.bind_list?_eq_some_iff]
  simp only [Option.bind_eq_bind, Option.bind_eq_some_iff]
  constructor
  · rintro ⟨choices, hchoices, choice, hchoice, hmessage⟩
    obtain ⟨rest, rfl⟩ := List.head?_eq_some_iff.mp hchoice
    exact ⟨choice, rest, hchoices, hmessage⟩
  · rintro ⟨choice, rest, hchoices, hmessage⟩
    exact ⟨choice :: rest, hchoices, choice, rfl, hmessage⟩

theorem callsOf_iff {items : List Json} : CallsOf message items ↔
    ((message.member? "tool_calls").bind Json.list?).getD [] = items := by
  cases hlist : (message.member? "tool_calls").bind Json.list? with
  | none =>
    have hnone : ∀ items, message.member? "tool_calls" ≠ some (.list items) := by
      intro items hitems
      rw [Json.bind_list?_eq_some_iff.mpr hitems] at hlist
      cases hlist
    constructor
    · intro h
      cases h with
      | listed h => exact absurd h (hnone items)
      | unlisted => rfl
    · rintro rfl
      exact .unlisted hnone
  | some found =>
    have hfound := Json.bind_list?_eq_some_iff.mp hlist
    constructor
    · intro h
      cases h with
      | listed h => exact Json.list.inj (Option.some.inj (hfound.symm.trans h))
      | unlisted h => exact absurd hfound (h found)
    · rintro rfl
      exact .listed hfound

theorem exists_callsOf (message : Json) : ∃ items, CallsOf message items :=
  ⟨_, callsOf_iff.mpr rfl⟩

theorem content_eq_iff {content : Option String} :
    (message.memberText? "content").filter (fun s => !isBlank s) = content ↔
      ∀ s, content = some s ↔
        message.member? "content" = some (.text s) ∧ isBlank s = false := by
  rw [eq_comm, Option.ext_iff]
  refine forall_congr' fun s => ?_
  rw [Option.filter_eq_some_iff, Json.memberText?, Json.bind_text?_eq_some_iff, Bool.not_eq_true']

/-- What an answer is read as, by its first message and what stands for calls there. -/
theorem decode_eq {items : List Json} (hmessage : FirstMessage answer message)
    (hitems : CallsOf message items) : decode answer =
      (⟨(message.memberText? "content").filter fun s => !isBlank s, ·⟩) <$>
        items.mapM ToolCall.decode := by
  rw [decode, firstMessage?_eq_some_iff.mpr hmessage, ← callsOf_iff.mp hitems, map_eq_pure_bind]

theorem decode_first_eq_ok_iff (hmessage : FirstMessage answer message) :
    decode answer = .ok c ↔ Says message c := by
  obtain ⟨items, hitems⟩ := exists_callsOf message
  rw [decode_eq hmessage hitems, map_eq_ok_iff]
  simp only [mapM_eq_ok_iff, ToolCall.decode_eq_ok_iff]
  constructor
  · rintro ⟨calls, hcalls, rfl⟩
    exact ⟨content_eq_iff.mp rfl, items, hitems, hcalls⟩
  · rintro ⟨hcontent, others, hothers, hcalls⟩
    obtain rfl : items = others := (callsOf_iff.mp hitems).symm.trans (callsOf_iff.mp hothers)
    exact ⟨c.calls, hcalls, by rw [content_eq_iff.mpr hcontent]⟩

/-- An answer is read as a whole or not at all. -/
theorem decode_eq_ok_iff :
    decode answer = .ok c ↔ ∃ message, FirstMessage answer message ∧ Says message c := by
  constructor
  · intro h
    cases hfirst : firstMessage? answer with
    | none =>
      rw [decode, hfirst] at h
      cases h
    | some message =>
      have hmessage := firstMessage?_eq_some_iff.mp hfirst
      exact ⟨message, hmessage, (decode_first_eq_ok_iff hmessage).mp h⟩
  · rintro ⟨message, hmessage, hsays⟩
    exact (decode_first_eq_ok_iff hmessage).mpr hsays

/-- All calls of a message have an id and the name of a function. -/
def Readable (message : Json) : Prop :=
  ∀ items, message.member? "tool_calls" = some (.list items) → ∀ v ∈ items, ToolCall.Named v

theorem exists_says_iff : (∃ c, Says message c) ↔ Readable message := by
  constructor
  · rintro ⟨c, _, items, hitems, hcalls⟩ others hothers v hv
    obtain rfl : items = others :=
      (callsOf_iff.mp hitems).symm.trans (callsOf_iff.mp (.listed hothers))
    exact ToolCall.exists_requested_iff.mp (exists_forall₂_iff.mp ⟨c.calls, hcalls⟩ v hv)
  · intro h
    obtain ⟨items, hitems⟩ := exists_callsOf message
    have hnamed : ∀ v ∈ items, ∃ c, ToolCall.Requested v c := by
      intro v hv
      cases hitems with
      | listed hlisted => exact ToolCall.exists_requested_iff.mpr (h items hlisted v hv)
      | unlisted => exact absurd hv List.not_mem_nil
    obtain ⟨calls, hcalls⟩ := exists_forall₂_iff.mpr hnamed
    exact ⟨⟨_, calls⟩, content_eq_iff.mp rfl, items, hitems, hcalls⟩

/-- One message is another one with the arguments of its calls given by their text. -/
structure SpelledOut (message other : Json) : Prop where
  content : message.member? "content" = other.member? "content"
  calls : ∃ items others, CallsOf message items ∧ CallsOf other others ∧
    List.Forall₂ ToolCall.SpelledOut items others

theorem decode_eq_of_spelledOut {again other : Json} (hmessage : FirstMessage answer message)
    (hother : FirstMessage again other) (h : SpelledOut message other) :
    decode answer = decode again := by
  obtain ⟨hcontent, items, others, hitems, hothers, hcalls⟩ := h
  have hread : items.mapM ToolCall.decode = others.mapM ToolCall.decode :=
    mapM_congr_of_forall₂ (hcalls.imp fun _ _ => ToolCall.decode_eq_of_spelledOut)
  rw [decode_eq hmessage hitems, decode_eq hother hothers, hread, Json.memberText?,
    Json.memberText?, hcontent]

/-! ### Sending what was read -/

theorem member?_wire_content (content : Option String) (calls : List ToolCall) :
    (Message.calls content calls).wire.member? "content" = some (Json.ofText? content) := by
  rw [Message.wire, Json.member?_ofMembers, Message.ownMembers]
  split <;> simp [Json.find?, Message.content]

theorem callsOf_wire (content : Option String) (calls : List ToolCall) :
    CallsOf (Message.calls content calls).wire (calls.map ToolCall.wire) := by
  rw [callsOf_iff, Message.wire, Json.member?_ofMembers, Message.ownMembers]
  cases calls with
  | nil => simp [Json.find?]
  | cons c rest => simp [Json.find?, Json.list?]

/-- A message of the program says what it was made of. -/
theorem says_wire {content : Option String} {calls : List ToolCall}
    (h : ∀ s, content = some s → isBlank s = false) :
    Says (Message.calls content calls).wire ⟨content, calls⟩ where
  content := by
    intro s
    rw [member?_wire_content, Option.some.injEq]
    cases content with
    | none => exact iff_of_false nofun nofun
    | some t =>
      rw [Json.ofText?, Json.text.injEq, Option.some.injEq]
      refine ⟨?_, And.left⟩
      rintro rfl
      exact ⟨rfl, h t rfl⟩
  calls := by
    refine ⟨_, callsOf_wire content calls, ?_⟩
    rw [List.forall₂_map_left_iff, List.forall₂_same]
    exact fun c _ => c.requested_wire

theorem Says.not_isBlank (h : Says message c) {s : String} (hs : c.content = some s) :
    isBlank s = false := ((h.content s).mp hs).2

theorem member?_messages (s : CompletionSettings) (messages : List Message)
    (tools : List ToolSpec) (force : Bool) :
    (request s messages tools force).member? "messages" =
      some (.list (messages.map Message.wire)) := by
  rw [request, Json.member?_ofMembers, toolMembers]
  split <;> simp [Json.find?]

/-- **Answers are read as what they say.**  An answer can be read just if it has a first message
whose calls all have an id and a name, and what is read is what this message says; arguments count
as their text.  What the program sends is read as what it was made of, so an answer that is sent in
the next request and read again is the same. -/
theorem decode_inverts_wire (answer : Json) :
    ((∃ c, decode answer = .ok c) ↔
      ∃ message, FirstMessage answer message ∧ Readable message) ∧
    (∀ c, decode answer = .ok c ↔ ∃ message, FirstMessage answer message ∧ Says message c) ∧
    (∀ message again other, FirstMessage answer message → FirstMessage again other →
      SpelledOut message other → decode answer = decode again) ∧
    (∀ content calls, (∀ s, content = some s → isBlank s = false) →
      FirstMessage answer (Message.calls content calls).wire →
        decode answer = .ok ⟨content, calls⟩) ∧
    ∀ c, decode answer = .ok c → ∀ settings before after tools force, ∃ messages message,
      (request settings (before ++ .calls c.content c.calls :: after) tools force).member?
        "messages" = some (.list messages) ∧
      messages[before.length]? = some message ∧
      ∀ again, FirstMessage again message → decode again = .ok c := by
  refine ⟨?_, fun c => decode_eq_ok_iff, ?_, ?_, ?_⟩
  · simp only [decode_eq_ok_iff, ← exists_says_iff]
    constructor
    · rintro ⟨c, message, hmessage, hsays⟩
      exact ⟨message, hmessage, c, hsays⟩
    · rintro ⟨message, hmessage, c, hsays⟩
      exact ⟨c, message, hmessage, hsays⟩
  · intro message again other hmessage hother h
    exact decode_eq_of_spelledOut hmessage hother h
  · intro content calls hcontent hmessage
    exact decode_eq_ok_iff.mpr ⟨_, hmessage, says_wire hcontent⟩
  · intro c hc settings before after tools force
    obtain ⟨message, _, hsays⟩ := decode_eq_ok_iff.mp hc
    refine ⟨_, (Message.calls c.content c.calls).wire, member?_messages .., ?_, ?_⟩
    · rw [List.map_append, List.map_cons, List.getElem?_append_right (by simp)]
      simp
    · intro again hagain
      exact decode_eq_ok_iff.mpr ⟨_, hagain, says_wire fun s hs => hsays.not_isBlank hs⟩

end Completion

end CorpusAgent
