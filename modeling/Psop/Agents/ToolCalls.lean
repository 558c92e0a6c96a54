import Mathlib.Data.List.Basic
import Mathlib.Data.List.Perm.Subperm

/-!
The messages a model is handed when tool calls may lack their results, as
`agent_harness/middlewares/dangling_tool_call.py` patches them.

`buildPatchedMessages` walks the list once: it moves the results behind the message that called for
them, fills in the missing ones, and answers only if one was missing. `patched_answered`,
`patched_others` and `patched_again` are what the walk always gives. `tool_calls_patched` says for
which lists the handed messages are right: the walk drops the results a call has to spare, and a
list in which nothing is missing is handed on as it stands, also with results out of place.
-/
namespace Psop.Agents.ToolCalls

/-! ### The messages -/

structure ToolCall where
  id : Option String
  name : Option String
deriving DecidableEq

structure ToolMessage where
  toolCallId : String
  name : String
  status : String
  content : String
deriving DecidableEq

inductive Message
  | ai (toolCalls : List ToolCall) (content : String)
  | tool (message : ToolMessage)
  | other (type content : String)
deriving DecidableEq

/-- `_tool_call_id`: a blank id is none. -/
def toolCallId (call : ToolCall) : Option String := call.id.filter (· ≠ "")

/-- `_tool_call_name` -/
def toolCallName (call : ToolCall) : String :=
  match call.name with
  | some name => if name = "" then "unknown" else name
  | none => "unknown"

/-- The ids of the calls of one message, in order. -/
def callIds (calls : List ToolCall) : List String := calls.filterMap toolCallId

def toolMessages : List Message → List ToolMessage
  | [] => []
  | .tool message :: rest => message :: toolMessages rest
  | _ :: rest => toolMessages rest

/-- `tool_call_ids`, with repetitions. -/
def allCallIds : List Message → List String
  | [] => []
  | .ai calls _ :: rest => callIds calls ++ allCallIds rest
  | _ :: rest => allCallIds rest

/-! ### The patch -/

/-- The results waiting for the calls of each id. -/
abbrev Queues := String → List ToolMessage

/-- `tool_messages_by_id` -/
def toolMessagesById (messages : List Message) : Queues := fun id =>
  (toolMessages messages).filter fun message => message.toolCallId ≠ "" ∧ message.toolCallId = id

def interrupted (call : ToolCall) (id : String) : ToolMessage where
  toolCallId := id
  name := toolCallName call
  status := "error"
  content := "[Tool call was interrupted and did not return a result.]"

/-- The results of one message's calls, whether one was missing, and the queues left. -/
def place (queues : Queues) : List ToolCall → List ToolMessage × Bool × Queues
  | [] => ([], false, queues)
  | call :: calls =>
    match toolCallId call with
    | none => place queues calls
    | some id =>
      match queues id with
      | result :: waiting =>
        let (placed, missing, left) := place (Function.update queues id waiting) calls
        (result :: placed, missing, left)
      | [] =>
        let (placed, _, left) := place queues calls
        (interrupted call id :: placed, true, left)

/-- The last loop of `_build_patched_messages`: `patched` and `changed`. -/
def patchFrom (ids : List String) (queues : Queues) : List Message → List Message × Bool
  | [] => ([], false)
  | .ai calls content :: rest =>
    let (placed, missing, left) := place queues calls
    let (patched, changed) := patchFrom ids left rest
    (.ai calls content :: placed.map .tool ++ patched, missing || changed)
  | .tool message :: rest =>
    if message.toolCallId ∈ ids then patchFrom ids queues rest
    else
      let (patched, changed) := patchFrom ids queues rest
      (.tool message :: patched, changed)
  | .other type content :: rest =>
    let (patched, changed) := patchFrom ids queues rest
    (.other type content :: patched, changed)

def buildPatchedMessages (messages : List Message) : Option (List Message) :=
  let (patched, changed) :=
    patchFrom (allCallIds messages) (toolMessagesById messages) messages
  if changed then some patched else none

/-- What `wrap_model_call` gives the model. -/
def handed (messages : List Message) : List Message :=
  (buildPatchedMessages messages).getD messages

/-! ### What the model is to be handed -/

/-- The messages that are no results. -/
def others : List Message → List Message
  | [] => []
  | .tool _ :: rest => others rest
  | message :: rest => message :: others rest

/-- The results a list begins with. -/
def leading : List Message → List ToolMessage
  | .tool message :: rest => message :: leading rest
  | _ => []

/-- One result for each of the ids, in order, and then no further one for any of them. -/
def Follows (ids : List String) (rest : List Message) : Prop :=
  ∃ (results : List ToolMessage) (after : List Message),
    rest = results.map .tool ++ after ∧ results.map (·.toolCallId) = ids ∧
      ∀ message ∈ leading after, message.toolCallId ∉ ids

/-- Every message with calls is followed by its results. -/
def Answered : List Message → Prop
  | [] => True
  | .ai calls _ :: rest => Follows (callIds calls) rest ∧ Answered rest
  | _ :: rest => Answered rest

structure Right (messages : List Message) : Prop where
  answered : Answered (handed messages)
  others : others (handed messages) = others messages
  results : (toolMessages messages).Subperm (toolMessages (handed messages))
  again : handed (handed messages) = handed messages

/-- How many calls there are for an id. -/
def calls (messages : List Message) (id : String) : Nat := (allCallIds messages).count id

/-- How many results there are for an id. -/
def results (messages : List Message) (id : String) : Nat :=
  ((toolMessages messages).map (·.toolCallId)).count id

/-- Some call has no result. -/
def Dangling (messages : List Message) : Prop :=
  ∃ id ∈ allCallIds messages, results messages id < calls messages id

/-! ### One message's calls -/

/-- Every queue holds results of its own id. -/
def Filed (queues : Queues) : Prop := ∀ id, ∀ message ∈ queues id, message.toolCallId = id

variable {queues : Queues} {ids : List String}

theorem Filed.drop (filed : Filed queues) {id : String} {message : ToolMessage}
    {waiting : List ToolMessage} (head : queues id = message :: waiting) :
    message.toolCallId = id ∧ Filed (Function.update queues id waiting) := by
  refine ⟨filed id message (by rw [head]; exact List.mem_cons_self), fun other result isIn => ?_⟩
  by_cases same : other = id
  · subst same
    rw [Function.update_self] at isIn
    exact filed other result (by rw [head]; exact List.mem_cons_of_mem _ isIn)
  · rw [Function.update_of_ne same] at isIn
    exact filed other result isIn

theorem interrupted_id (call : ToolCall) (id : String) : (interrupted call id).toolCallId = id :=
  rfl

/-- The results of `id` in a list. -/
def resultsOf (id : String) (results : List ToolMessage) : List ToolMessage :=
  results.filter (·.toolCallId = id)

theorem count_cons_ids (id other : String) (rest : List String) :
    (other :: rest).count id = rest.count id + if other = id then 1 else 0 := by
  rw [List.count_cons]
  simp only [beq_iff_eq]

section Place
variable {call : ToolCall} {id : String} {toolCalls : List ToolCall}

theorem call_ids_none (none : toolCallId call = none) :
    callIds (call :: toolCalls) = callIds toolCalls :=
  List.filterMap_cons_none none

theorem call_ids_some (isId : toolCallId call = some id) :
    callIds (call :: toolCalls) = id :: callIds toolCalls :=
  List.filterMap_cons_some isId

theorem place_none (none : toolCallId call = none) :
    place queues (call :: toolCalls) = place queues toolCalls := by
  simp only [place, none]

theorem place_missing (isId : toolCallId call = some id) (empty : queues id = []) :
    place queues (call :: toolCalls) =
      (interrupted call id :: (place queues toolCalls).1, true, (place queues toolCalls).2.2) := by
  simp only [place, isId, empty]

theorem place_found {result : ToolMessage} {waiting : List ToolMessage}
    (isId : toolCallId call = some id) (head : queues id = result :: waiting) :
    place queues (call :: toolCalls) =
      (result :: (place (Function.update queues id waiting) toolCalls).1,
        (place (Function.update queues id waiting) toolCalls).2) := by
  simp only [place, isId, head]

end Place

/-- What `place` does to the queue of each id: as many results as there are calls are taken from its
front, and the calls beyond them count as missing. -/
theorem place_spec (filed : Filed queues) (toolCalls : List ToolCall) :
    (place queues toolCalls).1.map (·.toolCallId) = callIds toolCalls ∧
      Filed (place queues toolCalls).2.2 ∧
      (∀ id, (place queues toolCalls).2.2 id = (queues id).drop ((callIds toolCalls).count id)) ∧
      (∀ id, ((queues id).take ((callIds toolCalls).count id)).Sublist
        (resultsOf id (place queues toolCalls).1)) ∧
      ((place queues toolCalls).2.1 = true ↔
        ∃ id, (queues id).length < (callIds toolCalls).count id) := by
  induction toolCalls generalizing queues with
  | nil => simp [place, callIds, filed]
  | cons call toolCalls ih =>
    cases isId : toolCallId call with
    | none =>
      rw [call_ids_none isId, place_none isId]
      exact ih filed
    | some id =>
      rw [call_ids_some isId]
      cases head : queues id with
      | nil =>
        rw [place_missing isId head]
        obtain ⟨named, filed', left, taken, -⟩ := ih filed
        refine ⟨?_, filed', fun other => ?_, fun other => ?_, ?_⟩
        · simp only [List.map_cons, interrupted_id, named]
        · rw [count_cons_ids]
          dsimp only
          rw [left other]
          split
          · rename_i same
            rw [← same, head, List.drop_nil, List.drop_nil]
          · rfl
        · rw [count_cons_ids]
          split
          · rename_i same
            rw [← same, head, List.take_nil]
            exact List.nil_sublist _
          · exact (taken other).trans ((List.sublist_cons_self _ _).filter _)
        · refine iff_of_true rfl ⟨id, ?_⟩
          rw [head, count_cons_ids, if_pos rfl]
          exact Nat.succ_pos _
      | cons result waiting =>
        rw [place_found isId head]
        obtain ⟨isOwn, filed'⟩ := filed.drop head
        obtain ⟨named, filed'', left, taken, missing⟩ := ih filed'
        have own : Function.update queues id waiting id = waiting := Function.update_self ..
        have apart : ∀ other, other ≠ id →
            Function.update queues id waiting other = queues other := fun other differs =>
          Function.update_of_ne differs ..
        refine ⟨?_, filed'', fun other => ?_, fun other => ?_, ?_⟩
        · simp only [List.map_cons, isOwn, named]
        · rw [count_cons_ids]
          dsimp only
          rw [left other]
          by_cases same : other = id
          · subst same
            rw [own, head, if_pos rfl, List.drop_succ_cons]
          · rw [apart other same, if_neg (Ne.symm same), Nat.add_zero]
        · rw [count_cons_ids]
          by_cases same : other = id
          · subst same
            have kept := taken other
            rw [own] at kept
            rw [head, if_pos rfl, List.take_succ_cons, resultsOf,
              List.filter_cons_of_pos (by simpa using isOwn)]
            exact kept.cons_cons _
          · have kept := taken other
            rw [apart other same] at kept
            rw [if_neg (Ne.symm same), Nat.add_zero]
            exact kept.trans ((List.sublist_cons_self _ _).filter _)
        · refine missing.trans (exists_congr fun other => ?_)
          rw [count_cons_ids]
          by_cases same : other = id
          · subst same
            rw [own, head, if_pos rfl, List.length_cons, Nat.add_lt_add_iff_right]
          · rw [apart other same, if_neg (Ne.symm same), Nat.add_zero]

/-! ### The whole walk -/

theorem others_results (results : List ToolMessage) (messages : List Message) :
    others (results.map .tool ++ messages) = others messages := by
  induction results with
  | nil => rfl
  | cons result results ih => exact ih

theorem answered_results (results : List ToolMessage) (messages : List Message) :
    Answered (results.map .tool ++ messages) ↔ Answered messages := by
  induction results with
  | nil => rfl
  | cons result results ih => exact ih

theorem tool_messages_results (results : List ToolMessage) (messages : List Message) :
    toolMessages (results.map .tool ++ messages) = results ++ toolMessages messages := by
  induction results with
  | nil => rfl
  | cons result results ih => exact congrArg (result :: ·) ih

theorem others_patched_ai (toolCalls : List ToolCall) (content : String) (rest : List Message) :
    others (patchFrom ids queues (.ai toolCalls content :: rest)).1 =
      .ai toolCalls content :: others (patchFrom ids (place queues toolCalls).2.2 rest).1 :=
  congrArg (Message.ai toolCalls content :: ·) (others_results _ _)

theorem tools_patched_ai (toolCalls : List ToolCall) (content : String) (rest : List Message) :
    toolMessages (patchFrom ids queues (.ai toolCalls content :: rest)).1 =
      (place queues toolCalls).1 ++
        toolMessages (patchFrom ids (place queues toolCalls).2.2 rest).1 :=
  tool_messages_results _ _

theorem patched_others (messages : List Message) :
    others (patchFrom ids queues messages).1 = others messages := by
  induction messages generalizing queues with
  | nil => rfl
  | cons message rest ih =>
    cases message with
    | ai toolCalls content =>
      rw [others_patched_ai, ih]
      rfl
    | tool result =>
      rw [patchFrom]
      split
      · exact ih
      · exact ih
    | other type content => exact congrArg (Message.other type content :: ·) ih

/-- The patched list begins with results of no known call, if with any. -/
theorem patched_leading (messages : List Message) :
    ∀ message ∈ leading (patchFrom ids queues messages).1, message.toolCallId ∉ ids := by
  induction messages generalizing queues with
  | nil => simp [patchFrom, leading]
  | cons message rest ih =>
    cases message with
    | ai toolCalls content => simp [patchFrom, leading]
    | tool result =>
      rw [patchFrom]
      split
      · exact ih
      · rename_i unknown
        intro message isIn
        rcases List.mem_cons.mp isIn with rfl | later
        · exact unknown
        · exact ih message later
    | other type content => simp [patchFrom, leading]

theorem patched_answered (filed : Filed queues) (messages : List Message)
    (known : ∀ id ∈ allCallIds messages, id ∈ ids) :
    Answered (patchFrom ids queues messages).1 := by
  induction messages generalizing queues with
  | nil => trivial
  | cons message rest ih =>
    cases message with
    | ai toolCalls content =>
      obtain ⟨named, filed', -⟩ := place_spec filed toolCalls
      have later := ih filed' fun id isIn => known id (List.mem_append_right _ isIn)
      refine ⟨⟨_, _, rfl, named, fun message isIn own => ?_⟩, (answered_results _ _).mpr later⟩
      exact patched_leading rest message isIn (known _ (List.mem_append_left _ own))
    | tool result =>
      rw [patchFrom]
      split
      · exact ih filed known
      · exact ih filed known
    | other type content => exact ih filed known

/-- The results of a called id in the patched list: those waiting, as far as there are calls. -/
theorem patched_taken (filed : Filed queues) (messages : List Message)
    (known : ∀ id ∈ allCallIds messages, id ∈ ids) (id : String) :
    ((queues id).take (calls messages id)).Sublist
      (resultsOf id (toolMessages (patchFrom ids queues messages).1)) := by
  induction messages generalizing queues with
  | nil => simp [calls, allCallIds]
  | cons message rest ih =>
    cases message with
    | ai toolCalls content =>
      obtain ⟨-, filed', left, taken, -⟩ := place_spec filed toolCalls
      have later := ih filed' fun id isIn => known id (List.mem_append_right _ isIn)
      rw [left id] at later
      rw [tools_patched_ai, resultsOf, List.filter_append, calls, allCallIds,
        List.count_append, List.take_add]
      exact (taken id).append later
    | tool result =>
      rw [patchFrom]
      split
      · exact ih filed known
      · exact (ih filed known).trans ((List.sublist_cons_self _ _).filter _)
    | other type content => exact ih filed known

/-- As many results as calls, for every called id. -/
theorem patched_counts (filed : Filed queues) (messages : List Message)
    (known : ∀ id ∈ allCallIds messages, id ∈ ids) {id : String} (called : id ∈ ids) :
    results (patchFrom ids queues messages).1 id = calls messages id := by
  induction messages generalizing queues with
  | nil => rfl
  | cons message rest ih =>
    cases message with
    | ai toolCalls content =>
      obtain ⟨named, filed', -⟩ := place_spec filed toolCalls
      have later := ih filed' fun id isIn => known id (List.mem_append_right _ isIn)
      rw [results] at later
      rw [results, tools_patched_ai, List.map_append, List.count_append, named, later, calls,
        calls, allCallIds, List.count_append]
    | tool result =>
      rw [patchFrom]
      split
      · exact ih filed known
      · rename_i unknown
        have differs : result.toolCallId ≠ id := fun same => unknown (same ▸ called)
        show List.count id (_ :: _) = _
        rw [count_cons_ids, if_neg differs]
        exact ih filed known
    | other type content => exact ih filed known

/-- Results of an unknown id stay. -/
theorem patched_unknown (messages : List Message) {id : String} (unknown : id ∉ ids)
    (filed : Filed queues) (known : ∀ id ∈ allCallIds messages, id ∈ ids) :
    resultsOf id (toolMessages (patchFrom ids queues messages).1) =
      resultsOf id (toolMessages messages) := by
  induction messages generalizing queues with
  | nil => rfl
  | cons message rest ih =>
    cases message with
    | ai toolCalls content =>
      obtain ⟨named, filed', -⟩ := place_spec filed toolCalls
      have later := ih filed' fun id isIn => known id (List.mem_append_right _ isIn)
      have none : resultsOf id (place queues toolCalls).1 = [] := by
        rw [resultsOf, List.filter_eq_nil_iff]
        intro result isIn
        have own : result.toolCallId ∈ callIds toolCalls := by
          rw [← named]
          exact List.mem_map_of_mem isIn
        have isKnown := known _ (List.mem_append_left _ own)
        simp only [decide_eq_true_eq]
        rintro rfl
        exact unknown isKnown
      rw [resultsOf] at none
      rw [tools_patched_ai, resultsOf, List.filter_append, none]
      exact later
    | tool result =>
      rw [patchFrom]
      split
      · rename_i isKnown
        have differs : result.toolCallId ≠ id := fun same => unknown (same ▸ isKnown)
        rw [ih filed known, toolMessages, resultsOf, resultsOf,
          List.filter_cons_of_neg (by simpa using differs)]
      · show resultsOf id (result :: _) = resultsOf id (result :: _)
        have later := ih filed known
        simp only [resultsOf, List.filter_cons] at later ⊢
        rw [later]
    | other type content => exact ih filed known

theorem patched_changed (filed : Filed queues) (messages : List Message) :
    (patchFrom ids queues messages).2 = true ↔ ∃ id, (queues id).length < calls messages id := by
  induction messages generalizing queues with
  | nil => simp [patchFrom, calls, allCallIds]
  | cons message rest ih =>
    cases message with
    | ai toolCalls content =>
      obtain ⟨-, filed', left, -, missing⟩ := place_spec filed toolCalls
      have split : ∀ id, (queues id).length < calls (.ai toolCalls content :: rest) id ↔
          (queues id).length < (callIds toolCalls).count id ∨
            ((place queues toolCalls).2.2 id).length < calls rest id := by
        intro id
        rw [left id, List.length_drop, calls, allCallIds, List.count_append, ← calls]
        omega
      show ((place queues toolCalls).2.1 || (patchFrom ids _ rest).2) = true ↔ _
      rw [Bool.or_eq_true, missing, ih filed', ← exists_or]
      exact exists_congr fun id => (split id).symm
    | tool result =>
      rw [patchFrom]
      split
      · exact ih filed
      · exact ih filed
    | other type content => exact ih filed

/-! ### The list handed on -/

theorem filed_by_id (messages : List Message) : Filed (toolMessagesById messages) := by
  intro id message isIn
  have kept := (List.mem_filter.mp isIn).2
  exact (of_decide_eq_true kept).2

theorem call_id_nonblank {messages : List Message} {id : String}
    (called : id ∈ allCallIds messages) : id ≠ "" := by
  induction messages with
  | nil => cases called
  | cons message rest ih =>
    cases message with
    | ai toolCalls content =>
      rcases List.mem_append.mp called with own | later
      · obtain ⟨call, -, isId⟩ := List.mem_filterMap.mp own
        exact of_decide_eq_true (Option.filter_eq_some_iff.mp isId).2
      · exact ih later
    | tool result => exact ih called
    | other type content => exact ih called

theorem by_id_eq {messages : List Message} {id : String} (called : id ∈ allCallIds messages) :
    toolMessagesById messages id = resultsOf id (toolMessages messages) := by
  apply List.filter_congr
  intro message _
  have nonblank := call_id_nonblank called
  rw [decide_eq_decide]
  exact ⟨fun both => both.2, fun same => ⟨same ▸ nonblank, same⟩⟩

theorem length_results_of (id : String) (messages : List Message) :
    (resultsOf id (toolMessages messages)).length = results messages id := by
  rw [results, List.count, List.countP_map, List.countP_eq_length_filter, resultsOf]
  rfl

theorem changed_iff (messages : List Message) :
    (patchFrom (allCallIds messages) (toolMessagesById messages) messages).2 = true ↔
      Dangling messages := by
  rw [patched_changed (filed_by_id messages)]
  constructor
  · rintro ⟨id, short⟩
    have called : id ∈ allCallIds messages := List.count_pos_iff.mp (Nat.zero_lt_of_lt short)
    rw [by_id_eq called, length_results_of] at short
    exact ⟨id, called, short⟩
  · rintro ⟨id, called, short⟩
    refine ⟨id, ?_⟩
    rw [by_id_eq called, length_results_of]
    exact short

/-- The patched list. -/
def patched (messages : List Message) : List Message :=
  (patchFrom (allCallIds messages) (toolMessagesById messages) messages).1

theorem handed_dangling {messages : List Message} (dangling : Dangling messages) :
    handed messages = patched messages := by
  rw [handed, buildPatchedMessages]
  dsimp only
  rw [if_pos ((changed_iff messages).mpr dangling), Option.getD_some, patched]

theorem handed_whole {messages : List Message} (whole : ¬Dangling messages) :
    handed messages = messages := by
  rw [handed, buildPatchedMessages]
  dsimp only
  rw [if_neg fun changed => whole ((changed_iff messages).mp changed), Option.getD_none]

theorem all_call_ids_others (messages : List Message) :
    allCallIds (others messages) = allCallIds messages := by
  induction messages with
  | nil => rfl
  | cons message rest ih =>
    cases message with
    | ai toolCalls content => exact congrArg (callIds toolCalls ++ ·) ih
    | tool result => exact ih
    | other type content => exact ih

/-- Nothing is missing from the patched list. -/
theorem patched_again (messages : List Message) : ¬Dangling (patched messages) := by
  have same : allCallIds (patched messages) = allCallIds messages := by
    rw [← all_call_ids_others, patched, patched_others, all_call_ids_others]
  rintro ⟨id, called, short⟩
  rw [same] at called
  have many := patched_counts (filed_by_id messages) messages (fun _ isIn => isIn) called
  rw [calls, same, ← calls, ← many, patched] at short
  exact Nat.lt_irrefl _ short

/-- The walk keeps every result exactly where no called id has results to spare. -/
theorem patched_results (messages : List Message) :
    (toolMessages messages).Subperm (toolMessages (patched messages)) ↔
      ∀ id ∈ allCallIds messages, results messages id ≤ calls messages id := by
  have filed := filed_by_id messages
  constructor
  · intro kept id called
    have fewer := (kept.filter (·.toolCallId = id)).length_le
    have before := length_results_of id messages
    have after := length_results_of id (patched messages)
    have many := patched_counts filed messages (fun _ isIn => isIn) called
    rw [← patched] at many
    rw [resultsOf] at before after
    omega
  · intro spare
    rw [List.subperm_ext_iff]
    intro message _
    have own : ∀ list : List ToolMessage,
        list.count message = (resultsOf message.toolCallId list).count message := by
      intro list
      rw [resultsOf, List.count_filter (by simp)]
    rw [own, own (toolMessages (patched messages))]
    by_cases called : message.toolCallId ∈ allCallIds messages
    · have taken := patched_taken filed messages (fun _ isIn => isIn) message.toolCallId
      rw [by_id_eq called, List.take_of_length_le] at taken
      · exact taken.count_le message
      · rw [length_results_of]
        exact spare _ called
    · exact Nat.le_of_eq (by
        rw [patched, patched_unknown messages called filed fun _ isIn => isIn])

/-- **The patched messages.** What the model is handed is right exactly where, if a call has no
result, no called id has results to spare, and, if none is missing, they stand behind their calls
already. -/
theorem tool_calls_patched (messages : List Message) :
    Right messages ↔
      (Dangling messages → ∀ id ∈ allCallIds messages, results messages id ≤ calls messages id) ∧
        (¬Dangling messages → Answered messages) := by
  by_cases dangling : Dangling messages
  · have given := handed_dangling dangling
    constructor
    · intro right
      have kept := right.results
      rw [given] at kept
      exact ⟨fun _ => (patched_results messages).mp kept, fun whole => absurd dangling whole⟩
    · rintro ⟨spare, -⟩
      refine ⟨?_, ?_, ?_, ?_⟩
      · rw [given]
        exact patched_answered (filed_by_id messages) messages fun _ => id
      · rw [given]
        exact patched_others messages
      · rw [given]
        exact (patched_results messages).mpr (spare dangling)
      · rw [given]
        exact handed_whole (patched_again messages)
  · have given := handed_whole dangling
    constructor
    · intro right
      have answered := right.answered
      rw [given] at answered
      exact ⟨fun isDangling => absurd isDangling dangling, fun _ => answered⟩
    · rintro ⟨-, answered⟩
      refine ⟨?_, ?_, ?_, ?_⟩
      · rw [given]
        exact answered dangling
      · rw [given]
      · rw [given]
      · rw [given, given]

/-- A result that stands behind another message. -/
def displaced : List Message :=
  [.ai [⟨some "call-1", some "demo_tool"⟩] "", .other "human" "hello",
    .tool ⟨"call-1", "demo_tool", "success", "42"⟩]

/-- Nothing is missing from the list, so it is handed on with the result out of place. -/
theorem result_out_of_place : ¬∀ messages, Right messages := by
  intro always
  have answered := (always displaced).answered
  have given : handed displaced = displaced := by decide +kernel
  rw [given] at answered
  obtain ⟨⟨results, after, split, named, -⟩, -⟩ := answered
  cases results with
  | nil => cases named
  | cons result results => cases split

end Psop.Agents.ToolCalls
