import Psop.Json
import Mathlib.Data.List.Perm.Basic
import Mathlib.Data.List.Forall2
import Mathlib.Algebra.Ring.Nat

/-!
The transcript a judge is given of a run's terminal outputs (`domain/skill_tests/service.py`).

Every output is cut to its own budget. The newest one is then always taken, cut once more if its
JSON text alone is over the transcript's budget, and older ones are taken, newest first, while their
JSON texts fit in what is left (`fitting`). `compact_eq` says that this is what the loop does. Order,
completeness and the newest output are as they are to be, `truncate_length` bounds every cut text,
but the sizes that are added up are not the size of the transcript: the brackets and separators of
the list are left out, and the size of the newest output is not taken again with the flags its cut
sets. `transcript_right` says for which outputs the transcript is within its budget all the same.
-/
namespace Psop.SkillTests.Transcript

open Json

/-! ### Taking what fits -/

section Fitting
variable {α : Type} (size : α → Nat) (budget : Nat)

/-- The items whose sizes still fit, from the first on, when `used` is taken. -/
def fitting : Nat → List α → List α
  | _, [] => []
  | used, item :: rest =>
    if used + size item ≤ budget then item :: fitting (used + size item) rest
    else fitting used rest

/-- The others. -/
def passed : Nat → List α → List α
  | _, [] => []
  | used, item :: rest =>
    if used + size item ≤ budget then passed (used + size item) rest
    else item :: passed used rest

variable {size budget}

theorem fitting_sublist (used : Nat) (items : List α) :
    (fitting size budget used items).Sublist items := by
  induction items generalizing used with
  | nil => exact .slnil
  | cons item rest ih =>
    rw [fitting]
    split
    · exact (ih _).cons_cons item
    · exact (ih _).cons item

/-- Every item is taken or passed over. -/
theorem fitting_passed (used : Nat) (items : List α) :
    (fitting size budget used items ++ passed size budget used items).Perm items := by
  induction items generalizing used with
  | nil => exact .refl _
  | cons item rest ih =>
    rw [fitting, passed]
    split
    · exact (ih _).cons item
    · exact List.perm_middle.trans ((ih _).cons item)

end Fitting

/-! ### The code -/

/-- What the compaction reads of a terminal event; the instant as `_judge_datetime` writes it. -/
structure TerminalOutput where
  seqNo : Option Int
  occurredAt : String
  eventKind : Json
  mimeType : Json
  payloadInline : Json

structure JudgeOutput where
  seqNo : Option Int
  occurredAt : String
  eventKind : Json
  mimeType : Json
  payloadText : String
  payloadChars : Nat
  includedPayloadChars : Nat
  payloadTruncated : Bool
  truncationReason : String

def insertField (field : String × Json) : Fields → Fields
  | [] => [field]
  | other :: rest =>
    if Text.codesLt (Text.codes field.1) (Text.codes other.1) then field :: other :: rest
    else other :: insertField field rest

mutual
/-- The value with its keys in order, at any depth: `sort_keys=True`. -/
def sortKeys : Json → Json
  | arr items => arr (sortItems items)
  | obj fields => obj (sortFields fields)
  | value => value
termination_by structural x => x
def sortItems : List Json → List Json
  | [] => []
  | item :: items => sortKeys item :: sortItems items
termination_by structural x => x
def sortFields : List (String × Json) → List (String × Json)
  | [] => []
  | field :: fields => insertField (sortField field) (sortFields fields)
termination_by structural x => x
def sortField : String × Json → String × Json
  | (key, value) => (key, sortKeys value)
termination_by structural x => x
end

/-- `_json_chars` -/
def jsonChars (value : Json) : Nat := (dumps (sortKeys value)).toList.length

/-- `_judge_text` -/
def judgeText : Json → String
  | null => ""
  | str text => text
  | value => dumps (sortKeys value)

/-- `_truncate_judge_text`: the text and whether it was cut. -/
def truncateJudgeText (value : String) (maxChars : Nat) : String × Bool :=
  let chars := value.toList
  if chars.length ≤ maxChars then (value, false)
  else if maxChars = 0 then ("", value ≠ "")
  else
    let omitted := chars.length - maxChars
    let marker := ("\n...[truncated " ++ toString omitted ++ " chars]...\n").toList
    if maxChars ≤ marker.length + 8 then (String.ofList (chars.take maxChars), true)
    else
      let available := maxChars - marker.length
      let headChars := max 1 (available / 2)
      let tailChars := max 1 (available - headChars)
      (String.ofList (chars.take headChars ++ marker ++ chars.drop (chars.length - tailChars)), true)

def JudgeOutput.toJson (item : JudgeOutput) : Json :=
  obj [("seq_no", match item.seqNo with | none => null | some n => num n),
    ("occurred_at", str item.occurredAt), ("event_kind", item.eventKind),
    ("mime_type", item.mimeType), ("payload_text", str item.payloadText),
    ("payload_chars", num item.payloadChars),
    ("included_payload_chars", num item.includedPayloadChars),
    ("payload_truncated", bool item.payloadTruncated),
    ("truncation_reason", str item.truncationReason)]

def JudgeOutput.chars (item : JudgeOutput) : Nat := jsonChars item.toJson

/-- `_compact_judge_terminal_output` -/
def compactJudgeTerminalOutput (eventBudget : Nat) (event : TerminalOutput) : JudgeOutput :=
  let payloadText := judgeText event.payloadInline
  let truncated := truncateJudgeText payloadText eventBudget
  { seqNo := event.seqNo, occurredAt := event.occurredAt, eventKind := event.eventKind
    mimeType := event.mimeType, payloadText := truncated.1
    payloadChars := payloadText.toList.length
    includedPayloadChars := truncated.1.toList.length, payloadTruncated := truncated.2
    truncationReason := if truncated.2 then "event_budget" else "" }

/-- The newest output, cut so that its text alone would fill what the rest of it leaves. -/
def cutCandidate (transcriptBudget : Nat) (candidate : JudgeOutput) : JudgeOutput :=
  let staticChars := candidate.chars - candidate.payloadText.toList.length
  let availablePayloadChars := transcriptBudget - staticChars
  let truncated := truncateJudgeText candidate.payloadText availablePayloadChars
  { candidate with
    payloadText := truncated.1, payloadTruncated := true
    truncationReason := if truncated.2 then "transcript_budget" else candidate.truncationReason }

/-- The loop over the reversed candidates: `included_reversed` and `included_chars`. -/
def compactLoop (transcriptBudget : Nat) : List JudgeOutput → List JudgeOutput → Nat →
    List JudgeOutput × Nat
  | [], includedReversed, includedChars => (includedReversed, includedChars)
  | candidate :: rest, includedReversed, includedChars =>
    if includedReversed ≠ [] ∧ includedChars + candidate.chars > transcriptBudget then
      compactLoop transcriptBudget rest includedReversed includedChars
    else
      let candidate :=
        if includedReversed = [] ∧ candidate.chars > transcriptBudget then
          cutCandidate transcriptBudget candidate
        else candidate
      if includedChars + candidate.chars ≤ transcriptBudget ∨ includedReversed = [] then
        compactLoop transcriptBudget rest (includedReversed ++ [candidate])
          (includedChars + candidate.chars)
      else compactLoop transcriptBudget rest includedReversed includedChars

structure Compaction where
  transcriptBudgetChars : Nat
  eventBudgetChars : Nat
  terminalOutputCount : Nat
  includedTerminalOutputCount : Nat
  omittedTerminalOutputCount : Nat
  omittedSeqNo : List (Option Int)
  includedChars : Nat
  truncatedSeqNo : List (Option Int)

def compactJudgeTerminalOutputs (scopedOutputs : List TerminalOutput)
    (transcriptBudget eventBudget : Nat) : List JudgeOutput × Compaction :=
  let candidates := scopedOutputs.map (compactJudgeTerminalOutput eventBudget)
  let selected := compactLoop transcriptBudget candidates.reverse [] 0
  let included := selected.1.reverse
  let includedSeqNo := included.map JudgeOutput.seqNo
  (included,
    { transcriptBudgetChars := transcriptBudget, eventBudgetChars := eventBudget
      terminalOutputCount := scopedOutputs.length
      includedTerminalOutputCount := included.length
      omittedTerminalOutputCount := scopedOutputs.length - included.length
      omittedSeqNo := (candidates.map JudgeOutput.seqNo).filter (· ∉ includedSeqNo)
      includedChars := selected.2
      truncatedSeqNo := (included.filter JudgeOutput.payloadTruncated).map JudgeOutput.seqNo })

/-! ### What the transcript is to be -/

/-- The item is the output, whatever was cut from its text. -/
def StandsFor (eventBudget : Nat) (item : JudgeOutput) (output : TerminalOutput) : Prop :=
  ∃ text truncated reason, item =
    { compactJudgeTerminalOutput eventBudget output with
      payloadText := text, payloadTruncated := truncated, truncationReason := reason }

structure Right (outputs : List TerminalOutput) (transcriptBudget eventBudget : Nat) : Prop where
  within : jsonChars (arr ((compactJudgeTerminalOutputs outputs transcriptBudget eventBudget).1.map
    JudgeOutput.toJson)) ≤ transcriptBudget
  ordered : ∃ chosen, chosen.Sublist outputs ∧ List.Forall₂ (StandsFor eventBudget)
    (compactJudgeTerminalOutputs outputs transcriptBudget eventBudget).1 chosen
  together : ((compactJudgeTerminalOutputs outputs transcriptBudget eventBudget).1.map
      JudgeOutput.seqNo ++
        (compactJudgeTerminalOutputs outputs transcriptBudget eventBudget).2.omittedSeqNo).Perm
    (outputs.map TerminalOutput.seqNo)
  newest : ∀ output ∈ outputs.getLast?, ∃ item ∈
    (compactJudgeTerminalOutputs outputs transcriptBudget eventBudget).1.getLast?,
      StandsFor eventBudget item output
  texts : ∀ item ∈ (compactJudgeTerminalOutputs outputs transcriptBudget eventBudget).1,
    item.payloadText.toList.length ≤ eventBudget

/-- The newest candidate, cut if it is over the budget, and the older ones that fit beside it. -/
def recent (transcriptBudget : Nat) : List JudgeOutput → List JudgeOutput
  | [] => []
  | last :: older =>
    let first := if last.chars > transcriptBudget then cutCandidate transcriptBudget last else last
    first :: fitting JudgeOutput.chars transcriptBudget first.chars older

/-- The older ones that do not. -/
def left (transcriptBudget : Nat) : List JudgeOutput → List JudgeOutput
  | [] => []
  | last :: older =>
    let first := if last.chars > transcriptBudget then cutCandidate transcriptBudget last else last
    passed JudgeOutput.chars transcriptBudget first.chars older

/-- The candidates, newest first. -/
def newestFirst (outputs : List TerminalOutput) (eventBudget : Nat) : List JudgeOutput :=
  (outputs.map (compactJudgeTerminalOutput eventBudget)).reverse

/-- What an output takes of the transcript: its JSON text, and two characters of the list around it. -/
def JudgeOutput.room (item : JudgeOutput) : Nat := item.chars + 2

/-- Each output, newest first, fits beside those before it that do, or is too long for what their JSON
texts alone leave: on none does it depend whether the list's own characters are counted. -/
def NoneBetween (budget : Nat) : Nat → Nat → List JudgeOutput → Prop
  | _, _, [] => True
  | texts, count, item :: rest =>
    if texts + 2 * count + item.room ≤ budget
    then NoneBetween budget (texts + item.chars) (count + 1) rest
    else budget < texts + item.chars ∧ NoneBetween budget texts count rest

/-- The newest output fits, on no output does it depend whether the list's own characters are counted,
and none that does not fit shares its number with one that does. -/
structure Spacious (outputs : List TerminalOutput) (transcriptBudget eventBudget : Nat) : Prop where
  newest : ∀ item ∈ (newestFirst outputs eventBudget).head?, item.room ≤ transcriptBudget
  noneBetween : NoneBetween transcriptBudget 0 0 (newestFirst outputs eventBudget)
  apart : ∀ item ∈ passed JudgeOutput.room transcriptBudget 0 (newestFirst outputs eventBudget),
    item.seqNo ∉ (fitting JudgeOutput.room transcriptBudget 0 (newestFirst outputs eventBudget)).map
      JudgeOutput.seqNo

/-! ### Texts -/

/-- **A cut text** is at most as long as it may be. -/
theorem truncate_length (value : String) (maxChars : Nat) :
    (truncateJudgeText value maxChars).1.toList.length ≤ maxChars := by
  rw [truncateJudgeText]
  dsimp only
  split
  · assumption
  split
  · exact Nat.zero_le _
  generalize ("\n...[truncated " ++ toString (value.toList.length - maxChars) ++
    " chars]...\n").toList = marker
  split
  · rw [String.toList_ofList]
    exact List.length_take_le _ _
  · rename_i wide
    rw [String.toList_ofList, List.length_append, List.length_append, List.length_take,
      List.length_drop]
    omega

theorem truncate_shorter (value : String) (maxChars : Nat) :
    (truncateJudgeText value maxChars).1.toList.length ≤ value.toList.length := by
  by_cases fits : value.toList.length ≤ maxChars
  · rw [truncateJudgeText]
    dsimp only
    rw [if_pos fits]
  · exact Nat.le_trans (truncate_length value maxChars) (Nat.le_of_lt (Nat.not_le.mp fits))

theorem sort_items_eq (items : List Json) : sortItems items = items.map sortKeys := by
  induction items with
  | nil => rfl
  | cons item items ih => rw [sortItems, ih, List.map_cons]

theorem dump_items_eq (items : List Json) : dumpItems items = items.map dumps := by
  induction items with
  | nil => rfl
  | cons item items ih => rw [dumpItems, ih, List.map_cons]

theorem join_length (first : String) (rest : List String) :
    (Text.join ", " (first :: rest)).toList.length + 2 =
      ((first :: rest).map fun text => text.toList.length + 2).sum := by
  induction rest generalizing first with
  | nil => simp [Text.join]
  | cons second rest ih =>
    rw [Text.join, String.toList_append, String.toList_append, List.length_append,
      List.length_append, List.map_cons, List.sum_cons, ← ih second]
    have separator : (", " : String).toList.length = 2 := by decide
    omega
    nofun

/-- The text of a list: its items', and two characters with each. -/
theorem list_chars {items : List JudgeOutput} (some : items ≠ []) :
    jsonChars (arr (items.map JudgeOutput.toJson)) =
      (items.map fun item => item.chars + 2).sum := by
  have text : dumps (sortKeys (arr (items.map JudgeOutput.toJson))) =
      "[" ++ Text.join ", " (items.map fun item => dumps (sortKeys item.toJson)) ++ "]" := by
    rw [sortKeys, sort_items_eq, dumps, dump_items_eq, List.map_map, List.map_map]
    rfl
  have brackets : ("[" : String).toList.length = 1 ∧ ("]" : String).toList.length = 1 := by decide
  cases items with
  | nil => exact absurd rfl some
  | cons first rest =>
    have whole := join_length (dumps (sortKeys first.toJson))
      (rest.map fun item => dumps (sortKeys item.toJson))
    have sums : ((dumps (sortKeys first.toJson) :: rest.map fun item =>
        dumps (sortKeys item.toJson)).map fun text => text.toList.length + 2).sum =
          ((first :: rest).map fun item => item.chars + 2).sum := by
      rw [List.map_cons, List.map_cons, List.map_map]
      rfl
    rw [jsonChars, text, String.toList_append, String.toList_append, List.length_append,
      List.length_append, brackets.1, brackets.2, ← sums, ← whole, List.map_cons]
    omega

theorem list_chars_nil : jsonChars (arr (([] : List JudgeOutput).map JudgeOutput.toJson)) = 2 := by
  decide

/-! ### The loop -/

variable {transcriptBudget eventBudget : Nat} {outputs : List TerminalOutput}

/-- Once something is included, the loop takes what fits. -/
theorem loop_spec (rest : List JudgeOutput) {included : List JudgeOutput} (some : included ≠ [])
    (used : Nat) : compactLoop transcriptBudget rest included used =
      (included ++ fitting JudgeOutput.chars transcriptBudget used rest,
        used + ((fitting JudgeOutput.chars transcriptBudget used rest).map JudgeOutput.chars).sum) := by
  induction rest generalizing included used with
  | nil => simp [compactLoop, fitting]
  | cons candidate rest ih =>
    rw [compactLoop, fitting]
    by_cases fits : used + candidate.chars ≤ transcriptBudget
    · rw [if_neg fun tooLong => Nat.not_le.mpr tooLong.2 fits]
      simp only [some, false_and, if_false, fits, true_or, if_true]
      rw [ih (List.append_ne_nil_of_left_ne_nil some _), List.append_assoc, List.map_cons,
        List.sum_cons, Nat.add_assoc]
      rfl
    · rw [if_pos ⟨some, Nat.not_le.mp fits⟩, if_neg fits]
      exact ih some used

/-- **The loop** includes the newest output and the older ones that fit beside it. -/
theorem compact_eq (outputs : List TerminalOutput) (transcriptBudget eventBudget : Nat) :
    (compactJudgeTerminalOutputs outputs transcriptBudget eventBudget).1 =
      (recent transcriptBudget (newestFirst outputs eventBudget)).reverse := by
  rw [compactJudgeTerminalOutputs]
  dsimp only
  rw [← newestFirst]
  congr 1
  cases newestFirst outputs eventBudget with
  | nil => rfl
  | cons last older =>
    rw [compactLoop, recent]
    simp only [ne_eq, not_true_eq_false, false_and, if_false, true_and, or_true, if_true,
      List.nil_append, Nat.zero_add]
    rw [loop_spec older (List.cons_ne_nil _ _)]
    rfl

/-- Taken and left are all candidates, by their numbers. -/
theorem recent_left (transcriptBudget : Nat) (candidates : List JudgeOutput) :
    ((recent transcriptBudget candidates).map JudgeOutput.seqNo ++
      (left transcriptBudget candidates).map JudgeOutput.seqNo).Perm
        (candidates.map JudgeOutput.seqNo) := by
  cases candidates with
  | nil => exact .refl _
  | cons last older =>
    rw [recent, left]
    have first : (if last.chars > transcriptBudget then cutCandidate transcriptBudget last
        else last).seqNo = last.seqNo := by
      split <;> rfl
    generalize (if last.chars > transcriptBudget then cutCandidate transcriptBudget last
      else last) = newest at first ⊢
    rw [List.map_cons, List.map_cons, first, List.cons_append, ← List.map_append]
    exact ((fitting_passed _ older).map JudgeOutput.seqNo).cons _

theorem newest_first_numbers (outputs : List TerminalOutput) (eventBudget : Nat) :
    ((newestFirst outputs eventBudget).map JudgeOutput.seqNo).Perm
      (outputs.map TerminalOutput.seqNo) := by
  rw [newestFirst, List.map_reverse, List.map_map]
  exact List.reverse_perm _

/-- Included and omitted numbers are all numbers exactly where no number is shared. -/
theorem together_iff (outputs : List TerminalOutput) (transcriptBudget eventBudget : Nat) :
    ((compactJudgeTerminalOutputs outputs transcriptBudget eventBudget).1.map
        JudgeOutput.seqNo ++
          (compactJudgeTerminalOutputs outputs transcriptBudget eventBudget).2.omittedSeqNo).Perm
      (outputs.map TerminalOutput.seqNo) ↔
    ∀ item ∈ left transcriptBudget (newestFirst outputs eventBudget), item.seqNo ∉
      (recent transcriptBudget (newestFirst outputs eventBudget)).map JudgeOutput.seqNo := by
  have included := compact_eq outputs transcriptBudget eventBudget
  have numbers := newest_first_numbers outputs eventBudget
  have split := recent_left transcriptBudget (newestFirst outputs eventBudget)
  have omitted : (compactJudgeTerminalOutputs outputs transcriptBudget
      eventBudget).2.omittedSeqNo = ((newestFirst outputs eventBudget).map JudgeOutput.seqNo).reverse.filter
        (· ∉ (recent transcriptBudget (newestFirst outputs eventBudget)).map JudgeOutput.seqNo) := by
    rw [compactJudgeTerminalOutputs] at included ⊢
    dsimp only at included ⊢
    rw [included, newestFirst, List.map_reverse, List.map_reverse, List.reverse_reverse]
    simp only [List.mem_reverse]
  rw [included, omitted]
  generalize recent transcriptBudget (newestFirst outputs eventBudget) = taken at split ⊢
  generalize left transcriptBudget (newestFirst outputs eventBudget) = rest at split ⊢
  generalize (newestFirst outputs eventBudget).map JudgeOutput.seqNo = all at numbers split ⊢
  -- The omitted numbers are those of the left outputs that are not shared.
  have left : (all.reverse.filter (· ∉ taken.map JudgeOutput.seqNo)).Perm
      ((rest.map JudgeOutput.seqNo).filter (· ∉ taken.map JudgeOutput.seqNo)) := by
    have own : (taken.map JudgeOutput.seqNo).filter (· ∉ taken.map JudgeOutput.seqNo) = [] := by
      rw [List.filter_eq_nil_iff]
      intro n isIn
      simpa using isIn
    have filtered := ((split.trans (List.reverse_perm all).symm).filter
      (· ∉ taken.map JudgeOutput.seqNo)).symm
    rw [List.filter_append, own, List.nil_append] at filtered
    exact filtered
  have listed : (taken.reverse.map JudgeOutput.seqNo).Perm (taken.map JudgeOutput.seqNo) := by
    rw [List.map_reverse]
    exact List.reverse_perm _
  constructor
  · intro together item isIn shared
    have lengths := together.length_eq
    have parts := (split.trans numbers).length_eq
    have fewer := left.length_eq
    have less : ((rest.map JudgeOutput.seqNo).filter
        (· ∉ taken.map JudgeOutput.seqNo)).length < (rest.map JudgeOutput.seqNo).length := by
      rw [List.length_filter_lt_length_iff_exists]
      exact ⟨item.seqNo, List.mem_map_of_mem isIn, by simpa using shared⟩
    rw [List.length_append] at lengths parts
    rw [listed.length_eq] at lengths
    omega
  · intro apart
    have whole : (rest.map JudgeOutput.seqNo).filter (· ∉ taken.map JudgeOutput.seqNo) =
        rest.map JudgeOutput.seqNo := by
      rw [List.filter_eq_self]
      intro n isIn
      obtain ⟨item, isItem, rfl⟩ := List.mem_map.mp isIn
      simpa using apart item isItem
    rw [whole] at left
    exact (listed.append left).trans (split.trans numbers)

theorem within_iff (enough : 1000 ≤ transcriptBudget) :
    jsonChars (arr ((compactJudgeTerminalOutputs outputs transcriptBudget eventBudget).1.map
      JudgeOutput.toJson)) ≤ transcriptBudget ↔
    ((recent transcriptBudget (newestFirst outputs eventBudget)).map fun item =>
      item.chars + 2).sum ≤ transcriptBudget := by
  rw [compact_eq]
  by_cases empty : recent transcriptBudget (newestFirst outputs eventBudget) = []
  · rw [empty, List.reverse_nil, list_chars_nil, List.map_nil, List.sum_nil]
    omega
  · rw [list_chars (by simpa using empty), List.map_reverse, List.sum_reverse]

/-! ### What always holds -/

theorem stands_for_compact (eventBudget : Nat) (output : TerminalOutput) :
    StandsFor eventBudget (compactJudgeTerminalOutput eventBudget output) output :=
  ⟨_, _, _, rfl⟩

theorem stands_for_cut {item : JudgeOutput} {output : TerminalOutput}
    (stands : StandsFor eventBudget item output) (transcriptBudget : Nat) :
    StandsFor eventBudget (cutCandidate transcriptBudget item) output := by
  obtain ⟨text, truncated, reason, rfl⟩ := stands
  exact ⟨_, _, _, rfl⟩

/-- The newest output as it is included. -/
theorem stands_for_newest (transcriptBudget : Nat) (output : TerminalOutput) :
    StandsFor eventBudget
      (if (compactJudgeTerminalOutput eventBudget output).chars > transcriptBudget then
        cutCandidate transcriptBudget (compactJudgeTerminalOutput eventBudget output)
      else compactJudgeTerminalOutput eventBudget output) output := by
  split
  · exact stands_for_cut (stands_for_compact _ _) _
  · exact stands_for_compact _ _

theorem recent_chosen (outputs : List TerminalOutput) (transcriptBudget eventBudget : Nat) :
    ∃ chosen, chosen.Sublist outputs.reverse ∧ List.Forall₂ (StandsFor eventBudget)
      (recent transcriptBudget (newestFirst outputs eventBudget)) chosen := by
  rw [newestFirst, ← List.map_reverse]
  cases outputs.reverse with
  | nil => exact ⟨[], .slnil, .nil⟩
  | cons last older =>
    rw [List.map_cons, recent]
    obtain ⟨chosen, isSublist, same⟩ := List.sublist_map_iff.mp (fitting_sublist
      (if (compactJudgeTerminalOutput eventBudget last).chars > transcriptBudget then
        cutCandidate transcriptBudget (compactJudgeTerminalOutput eventBudget last)
      else compactJudgeTerminalOutput eventBudget last).chars
      (older.map (compactJudgeTerminalOutput eventBudget)))
    refine ⟨last :: chosen, isSublist.cons_cons last, .cons (stands_for_newest _ _) ?_⟩
    rw [same, List.forall₂_map_left_iff]
    exact List.forall₂_same.mpr fun output _ => stands_for_compact _ _

theorem recent_texts {item : JudgeOutput}
    (isIn : item ∈ recent transcriptBudget (newestFirst outputs eventBudget)) :
    item.payloadText.toList.length ≤ eventBudget := by
  have bounded : ∀ candidate ∈ newestFirst outputs eventBudget,
      candidate.payloadText.toList.length ≤ eventBudget := by
    intro candidate isCandidate
    obtain ⟨output, -, rfl⟩ := List.mem_map.mp (List.mem_reverse.mp isCandidate)
    exact truncate_length _ _
  cases candidates : newestFirst outputs eventBudget with
  | nil =>
    rw [candidates] at isIn
    cases isIn
  | cons last older =>
    rw [candidates] at isIn bounded
    rw [recent, List.mem_cons] at isIn
    rcases isIn with isFirst | isOlder
    · have own := bounded last List.mem_cons_self
      rw [isFirst]
      split
      · exact Nat.le_trans (truncate_shorter _ _) own
      · exact own
    · exact bounded item (List.mem_cons_of_mem _ ((fitting_sublist _ _).mem isOlder))

/-- The transcript is right where what is taken leaves room for the list's own characters, and no
number of it is among those left out. -/
theorem right_iff (outputs : List TerminalOutput) {transcriptBudget : Nat} (eventBudget : Nat)
    (enough : 1000 ≤ transcriptBudget) : Right outputs transcriptBudget eventBudget ↔
      ((recent transcriptBudget (newestFirst outputs eventBudget)).map JudgeOutput.room).sum ≤
        transcriptBudget ∧
      ∀ item ∈ left transcriptBudget (newestFirst outputs eventBudget), item.seqNo ∉
        (recent transcriptBudget (newestFirst outputs eventBudget)).map JudgeOutput.seqNo := by
  constructor
  · intro right
    exact ⟨(within_iff enough).mp right.within, (together_iff _ _ _).mp right.together⟩
  · rintro ⟨room, apart⟩
    obtain ⟨chosen, isSublist, stands⟩ := recent_chosen outputs transcriptBudget eventBudget
    refine ⟨(within_iff enough).mpr room, ?_, (together_iff _ _ _).mpr apart, ?_, ?_⟩
    · rw [compact_eq]
      refine ⟨chosen.reverse, ?_, List.forall₂_reverse_iff.mpr stands⟩
      rw [← List.reverse_reverse outputs]
      exact List.reverse_sublist.mpr isSublist
    · intro output isLast
      rw [compact_eq, List.getLast?_reverse]
      have isHead : outputs.reverse.head? = some output := by
        rw [List.head?_reverse]
        exact isLast
      rw [newestFirst, ← List.map_reverse]
      cases reversed : outputs.reverse with
      | nil =>
        rw [reversed] at isHead
        cases isHead
      | cons last older =>
        rw [reversed] at isHead
        obtain rfl := Option.some.inj isHead
        exact ⟨_, rfl, stands_for_newest _ _⟩
    · intro item isIn
      rw [compact_eq, List.mem_reverse] at isIn
      exact recent_texts isIn

/-! ### Which outputs leave room -/

/-- Where no output lies between, the code takes what fits in full. -/
theorem fits_in_full {items : List JudgeOutput} {texts count : Nat}
    (between : NoneBetween transcriptBudget texts count items)
    (fits : texts + 2 * count ≤ transcriptBudget) :
    fitting JudgeOutput.chars transcriptBudget texts items =
        fitting JudgeOutput.room transcriptBudget (texts + 2 * count) items ∧
      passed JudgeOutput.chars transcriptBudget texts items =
        passed JudgeOutput.room transcriptBudget (texts + 2 * count) items ∧
      texts + 2 * count + ((fitting JudgeOutput.room transcriptBudget (texts + 2 * count)
        items).map JudgeOutput.room).sum ≤ transcriptBudget := by
  induction items generalizing texts count with
  | nil => simpa only [fitting, passed, List.map_nil, List.sum_nil, Nat.add_zero, true_and] using fits
  | cons item rest ih =>
    rw [NoneBetween] at between
    simp only [fitting, passed]
    have next : texts + item.chars + 2 * (count + 1) = texts + 2 * count + item.room := by
      rw [JudgeOutput.room]
      omega
    split at between
    · rename_i inFull
      have short : texts + item.chars ≤ transcriptBudget := by
        rw [JudgeOutput.room] at inFull
        omega
      have room : texts + item.chars + 2 * (count + 1) ≤ transcriptBudget := next.le.trans inFull
      obtain ⟨taken, left, sum⟩ := ih between room
      rw [next] at taken left sum
      rw [if_pos short, if_pos short, if_pos inFull, if_pos inFull, taken, left, List.map_cons,
        List.sum_cons]
      exact ⟨rfl, rfl, by omega⟩
    · rename_i beyond
      rw [if_neg (Nat.not_le.mpr between.1), if_neg (Nat.not_le.mpr between.1), if_neg beyond, if_neg beyond]
      obtain ⟨taken, left, sum⟩ := ih between.2 fits
      exact ⟨taken, congrArg (item :: ·) left, sum⟩

/-- Where what the code takes leaves room for the list's own characters, no output lies between. -/
theorem none_between {items : List JudgeOutput} {texts count : Nat}
    (room : texts + 2 * count + ((fitting JudgeOutput.chars transcriptBudget texts items).map
      JudgeOutput.room).sum ≤ transcriptBudget) : NoneBetween transcriptBudget texts count items := by
  induction items generalizing texts count with
  | nil => exact trivial
  | cons item rest ih =>
    rw [fitting] at room
    rw [NoneBetween]
    split at room
    · rw [List.map_cons, List.sum_cons] at room
      rw [if_pos (by omega)]
      refine ih ?_
      have size : item.room = item.chars + 2 := rfl
      omega
    · rename_i tooLong
      have size : item.room = item.chars + 2 := rfl
      rw [if_neg (by omega)]
      exact ⟨Nat.not_le.mp tooLong, ih room⟩

/-- A newest output within the budget is taken like every other one. -/
theorem recent_uncut {candidates : List JudgeOutput}
    (uncut : ∀ item ∈ candidates.head?, item.chars ≤ transcriptBudget) :
    recent transcriptBudget candidates = fitting JudgeOutput.chars transcriptBudget 0 candidates ∧
      left transcriptBudget candidates = passed JudgeOutput.chars transcriptBudget 0 candidates := by
  cases candidates with
  | nil => exact ⟨rfl, rfl⟩
  | cons last older =>
    have short : last.chars ≤ transcriptBudget := uncut last rfl
    simp only [recent, left, fitting, passed, if_neg (Nat.not_lt.mpr short), Nat.zero_add, if_pos short,
      and_self]

/-- For a newest output that is not cut again, the transcript is right exactly for spacious outputs. -/
theorem right_iff_spacious (enough : 1000 ≤ transcriptBudget)
    (uncut : ∀ item ∈ (newestFirst outputs eventBudget).head?, item.chars ≤ transcriptBudget) :
    Right outputs transcriptBudget eventBudget ↔ Spacious outputs transcriptBudget eventBudget := by
  rw [right_iff outputs eventBudget enough, (recent_uncut uncut).1, (recent_uncut uncut).2]
  constructor
  · rintro ⟨room, apart⟩
    have between : NoneBetween transcriptBudget 0 0 (newestFirst outputs eventBudget) :=
      none_between (by simpa using room)
    obtain ⟨taken, left, sum⟩ := fits_in_full between (Nat.zero_le _)
    refine ⟨fun item isFirst => ?_, between, ?_⟩
    · obtain ⟨older, isList⟩ : ∃ older, newestFirst outputs eventBudget = item :: older := by
        cases candidates : newestFirst outputs eventBudget with
        | nil =>
          rw [candidates] at isFirst
          cases isFirst
        | cons first older =>
          rw [candidates] at isFirst
          exact ⟨older, by rw [Option.some.inj isFirst]⟩
      have short : 0 + item.chars ≤ transcriptBudget := by
        rw [Nat.zero_add]
        exact uncut item isFirst
      rw [isList, fitting, if_pos short, List.map_cons, List.sum_cons] at room
      omega
    · rw [taken, left] at apart
      exact apart
  · rintro ⟨-, between, apart⟩
    obtain ⟨taken, left, sum⟩ := fits_in_full between (Nat.zero_le _)
    rw [taken, left]
    exact ⟨by simpa using sum, apart⟩

/-! ### The newest output alone -/

theorem dump_fields_eq (fields : List (String × Json)) :
    dumpFields fields = fields.map dumpField := by
  induction fields with
  | nil => rfl
  | cons field fields ih => rw [dumpFields, ih, List.map_cons]

/-- The text of an object: its fields', and two characters with each. -/
theorem object_chars (field : String × Json) (fields : List (String × Json)) :
    (dumps (obj (field :: fields))).toList.length =
      ((field :: fields).map fun field => (dumpField field).toList.length + 2).sum := by
  have whole := join_length (dumpField field) (fields.map dumpField)
  have sums : ((dumpField field :: fields.map dumpField).map fun text =>
      text.toList.length + 2).sum =
        ((field :: fields).map fun field => (dumpField field).toList.length + 2).sum := by
    rw [List.map_cons, List.map_cons, List.map_map]
    rfl
  rw [dumps, dump_fields_eq, String.toList_append, String.toList_append, List.length_append,
    List.length_append, String.toList_singleton, String.toList_singleton, List.length_singleton,
    List.length_singleton, ← sums, ← whole, List.map_cons]
  omega

theorem field_chars (key : String) (value : Json) : (dumpField (key, value)).toList.length =
    (dumpString key).toList.length + 2 + (dumps value).toList.length := by
  have separator : (": " : String).toList.length = 2 := by decide
  rw [dumpField, String.toList_append, String.toList_append, List.length_append,
    List.length_append, separator]

/-- The characters of a text, as a JSON string has them between its quotes. -/
def escaped (text : String) : Nat := (text.toList.flatMap escapeChar).length

theorem string_chars (text : String) : (dumps (str text)).toList.length = escaped text + 2 := by
  rw [dumps, dumpString, String.toList_ofList, List.length_append, List.length_cons,
    List.length_singleton, escaped]

theorem bool_chars (b : Bool) : (dumps (bool b)).toList.length = if b then 4 else 5 := by
  cases b <;> decide

/-- The item but for its text and the flags of a cut. -/
def overhead (item : JudgeOutput) : Nat :=
  { item with payloadText := "", payloadTruncated := true, truncationReason := "" : JudgeOutput }.chars

theorem sorted_json (item : JudgeOutput) : sortKeys item.toJson =
    obj [("event_kind", sortKeys item.eventKind),
      ("included_payload_chars", num item.includedPayloadChars),
      ("mime_type", sortKeys item.mimeType), ("occurred_at", str item.occurredAt),
      ("payload_chars", num item.payloadChars), ("payload_text", str item.payloadText),
      ("payload_truncated", bool item.payloadTruncated),
      ("seq_no", sortKeys (match item.seqNo with | none => null | some n => num n)),
      ("truncation_reason", str item.truncationReason)] := by
  simp +decide only [JudgeOutput.toJson, sortKeys, sortFields, sortField, insertField, if_true,
    if_false]

theorem chars_eq (item : JudgeOutput) : item.chars =
    overhead item + escaped item.payloadText + (if item.payloadTruncated then 0 else 1) +
      escaped item.truncationReason := by
  have none : escaped "" = 0 := by decide
  rw [overhead, JudgeOutput.chars, JudgeOutput.chars, jsonChars, jsonChars, sorted_json,
    sorted_json, object_chars, object_chars]
  simp only [List.map_cons, List.map_nil, List.sum_cons, List.sum_nil, field_chars, string_chars,
    bool_chars, none]
  cases item.payloadTruncated
  · simp only [Bool.false_eq_true, ↓reduceIte]
    omega
  · simp only [↓reduceIte]
    omega

/-- A text that is cut fills its bound. -/
theorem truncate_fills {value : String} {maxChars : Nat}
    (long : maxChars < value.toList.length) :
    (truncateJudgeText value maxChars).1.toList.length = maxChars ∧
      (truncateJudgeText value maxChars).2 = true := by
  rw [truncateJudgeText]
  dsimp only
  rw [if_neg (Nat.not_le.mpr long)]
  split
  · rename_i none
    refine ⟨none.symm, ?_⟩
    rw [decide_eq_true_eq]
    rintro rfl
    exact absurd long (Nat.not_lt_zero _)
  generalize ("\n...[truncated " ++ toString (value.toList.length - maxChars) ++
    " chars]...\n").toList = marker
  split
  · refine ⟨?_, rfl⟩
    rw [String.toList_ofList, List.length_take]
    omega
  · refine ⟨?_, rfl⟩
    rw [String.toList_ofList, List.length_append, List.length_append, List.length_take,
      List.length_drop]
    omega

theorem escaped_le (text : String) : text.toList.length ≤ escaped text := by
  have some : ∀ c, 1 ≤ (escapeChar c).length := by
    intro c
    unfold escapeChar
    split_ifs <;> exact Nat.le_add_left _ _
  rw [escaped]
  induction text.toList with
  | nil => exact Nat.le_refl _
  | cons c cs ih =>
    have first := some c
    rw [List.flatMap_cons, List.length_cons, List.length_append]
    omega

/-- **The second cut** measures the output before it sets its flags: if nothing in the text needs
an escape, what is over the budget stays over it. -/
theorem cut_over_budget {candidate : JudgeOutput} (tooLong : transcriptBudget < candidate.chars)
    (plain : escaped candidate.payloadText = candidate.payloadText.toList.length)
    (reason : escaped candidate.truncationReason ≤ 12)
    (some : candidate.payloadText ≠ "") :
    transcriptBudget < (cutCandidate transcriptBudget candidate).chars := by
  have whole := chars_eq candidate
  have after := chars_eq (cutCandidate transcriptBudget candidate)
  have same : overhead (cutCandidate transcriptBudget candidate) = overhead candidate := rfl
  have nonempty : 0 < candidate.payloadText.toList.length := by
    rw [List.length_pos_iff]
    intro empty
    exact some (String.toList_inj.mp empty)
  have flag : (if candidate.payloadTruncated then 0 else 1) ≤ 1 := by split <;> omega
  have long : transcriptBudget - (candidate.chars - candidate.payloadText.toList.length) <
      candidate.payloadText.toList.length := by omega
  obtain ⟨fills, wasCut⟩ := truncate_fills long
  have text := escaped_le (cutCandidate transcriptBudget candidate).payloadText
  have isText : (cutCandidate transcriptBudget candidate).payloadText.toList.length =
      transcriptBudget - (candidate.chars - candidate.payloadText.toList.length) := fills
  have isReason : escaped (cutCandidate transcriptBudget candidate).truncationReason = 17 := by
    show escaped (if (truncateJudgeText _ _).2 then _ else _) = 17
    rw [wasCut, if_pos rfl]
    decide
  rw [same, isReason] at after
  omega

/-- An output of so many characters, none of which needs an escape. -/
def plainOutput (length : Nat) : TerminalOutput where
  seqNo := some 1
  occurredAt := "2026-05-13T00:00:01+00:00"
  eventKind := str "terminal.text.output.v1"
  mimeType := str "text/plain"
  payloadInline := str (String.ofList (List.replicate length 'a'))

theorem escaped_repeated (n : Nat) : escaped (String.ofList (List.replicate n 'a')) = n := by
  rw [escaped, String.toList_ofList]
  induction n with
  | zero => rfl
  | succ n ih =>
    rw [List.replicate_succ, List.flatMap_cons, List.length_append, ih]
    have one : (escapeChar 'a').length = 1 := by decide
    omega

/-- An output within its own budget is not cut for it. -/
theorem plain_output_whole (length : Nat) :
    (compactJudgeTerminalOutput length (plainOutput length)).payloadText =
      String.ofList (List.replicate length 'a') ∧
        (compactJudgeTerminalOutput length (plainOutput length)).truncationReason = "" := by
  have fits : (String.ofList (List.replicate length 'a')).toList.length ≤ length := by
    rw [String.toList_ofList, List.length_replicate]
  have whole : truncateJudgeText (judgeText (plainOutput length).payloadInline) length =
      (String.ofList (List.replicate length 'a'), false) := by
    rw [plainOutput, judgeText, truncateJudgeText]
    dsimp only
    rw [if_pos fits]
  rw [compactJudgeTerminalOutput]
  dsimp only
  rw [whole]
  exact ⟨rfl, rfl⟩

/-- Whatever the budget, a longer output of plain characters is over it when it is cut. -/
theorem plain_output_over (transcriptBudget : Nat) {length : Nat}
    (long : transcriptBudget < length) : transcriptBudget <
      (cutCandidate transcriptBudget
        (compactJudgeTerminalOutput length (plainOutput length))).chars ∧
      transcriptBudget < (compactJudgeTerminalOutput length (plainOutput length)).chars := by
  obtain ⟨isText, isReason⟩ := plain_output_whole length
  have size : escaped (compactJudgeTerminalOutput length (plainOutput length)).payloadText =
      length := by
    rw [isText, escaped_repeated]
  have tooLong : transcriptBudget <
      (compactJudgeTerminalOutput length (plainOutput length)).chars := by
    have whole := chars_eq (compactJudgeTerminalOutput length (plainOutput length))
    omega
  refine ⟨cut_over_budget tooLong ?_ ?_ ?_, tooLong⟩
  · rw [size, isText, String.toList_ofList, List.length_replicate]
  · rw [isReason]
    decide
  · intro none
    have empty : escaped "" = 0 := by decide
    rw [none, empty] at size
    omega

/-- A newest output that is cut again and needs no escape leaves the transcript over its budget. -/
theorem not_right_of_cut (enough : 1000 ≤ transcriptBudget) {item : JudgeOutput}
    (isFirst : item ∈ (newestFirst outputs eventBudget).head?)
    (tooLong : transcriptBudget < item.chars)
    (plain : escaped item.payloadText = item.payloadText.toList.length)
    (nonempty : item.payloadText ≠ "") : ¬Right outputs transcriptBudget eventBudget := by
  intro right
  have room := ((right_iff outputs eventBudget enough).mp right).1
  have reason : escaped item.truncationReason ≤ 12 := by
    obtain ⟨output, -, rfl⟩ := List.mem_map.mp (List.mem_reverse.mp (List.mem_of_mem_head? isFirst))
    rw [compactJudgeTerminalOutput]
    dsimp only
    split <;> decide
  have stays := cut_over_budget tooLong plain reason nonempty
  cases candidates : newestFirst outputs eventBudget with
  | nil =>
    rw [candidates] at isFirst
    cases isFirst
  | cons first older =>
    rw [candidates] at isFirst room
    obtain rfl := Option.some.inj isFirst
    rw [recent, if_pos tooLong, List.map_cons, List.sum_cons, JudgeOutput.room] at room
    omega

/-- **The transcript.** For every list of outputs and every budget of at least a thousand, the transcript
is right where the outputs are spacious, and nowhere else as long as the newest one is not cut to the
transcript's budget; where it is and its text needs no escape, the transcript is never right. -/
theorem transcript_right (outputs : List TerminalOutput) {transcriptBudget : Nat}
    (eventBudget : Nat) (enough : 1000 ≤ transcriptBudget) :
    (Spacious outputs transcriptBudget eventBudget → Right outputs transcriptBudget eventBudget) ∧
    ((∀ item ∈ (newestFirst outputs eventBudget).head?, item.chars ≤ transcriptBudget) →
      Right outputs transcriptBudget eventBudget → Spacious outputs transcriptBudget eventBudget) ∧
    ∀ item ∈ (newestFirst outputs eventBudget).head?, transcriptBudget < item.chars →
      escaped item.payloadText = item.payloadText.toList.length → item.payloadText ≠ "" →
      ¬Right outputs transcriptBudget eventBudget := by
  refine ⟨fun spacious => ?_, fun uncut => (right_iff_spacious enough uncut).mp,
    fun item isFirst tooLong plain => not_right_of_cut enough isFirst tooLong plain⟩
  refine (right_iff_spacious enough fun item isFirst => ?_).mpr spacious
  exact Nat.le_trans (Nat.le_add_right _ _) (spacious.newest item isFirst)

/-- A short output. -/
def groundOutput : TerminalOutput := ⟨some 1, "", str "text", str "text/plain", str "Grind."⟩

/-- Within its budget it is given to the judge as it is to be. -/
theorem transcript_right_short : Right [groundOutput] 1000 1000 := by
  have fits : (compactJudgeTerminalOutput 1000 groundOutput).room ≤ 1000 := by decide +kernel
  have all : 0 + 2 * 0 + (compactJudgeTerminalOutput 1000 groundOutput).room ≤ 1000 := by omega
  have alone : 0 + (compactJudgeTerminalOutput 1000 groundOutput).room ≤ 1000 := by omega
  refine (transcript_right [groundOutput] 1000 (Nat.le_refl _)).1 ⟨fun item isFirst => ?_, ?_, ?_⟩
  · obtain rfl := Option.some.inj isFirst
    exact fits
  · rw [newestFirst, List.map_singleton, List.reverse_singleton, NoneBetween, if_pos all]
    trivial
  · rw [newestFirst, List.map_singleton, List.reverse_singleton, passed, if_pos alone]
    exact fun _ none => absurd none List.not_mem_nil

/-- An output of two thousand characters, cut to a budget of a thousand, is over it. -/
theorem transcript_over_budget : ¬∀ (outputs : List TerminalOutput)
    (transcriptBudget eventBudget : Nat), 1000 ≤ transcriptBudget →
      Right outputs transcriptBudget eventBudget := by
  intro always
  obtain ⟨stays, tooLong⟩ := plain_output_over 1000 (show 1000 < 2000 by decide)
  have room := (within_iff (Nat.le_refl _)).mp
    (always [plainOutput 2000] 1000 2000 (Nat.le_refl _)).within
  have taken : recent 1000 (newestFirst [plainOutput 2000] 2000) =
      [cutCandidate 1000 (compactJudgeTerminalOutput 2000 (plainOutput 2000))] := by
    rw [newestFirst, List.map_singleton, List.reverse_singleton, recent, if_pos tooLong]
    rfl
  rw [taken, List.map_singleton, List.sum_singleton] at room
  omega

end Psop.SkillTests.Transcript
