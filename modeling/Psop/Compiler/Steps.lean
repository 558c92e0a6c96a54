import Mathlib.Data.List.Nodup
import Mathlib.Data.List.Perm.Subperm
import Psop.Compiler.Scaffold
import Psop.Compiler.Stable

/-!
The steps a scaffold is built of.

A name that is in use gets the first suffix that makes it new, and one of as many suffixes as there are
names in use does: `freshName_free`. A text that is missing is filled in. So `steps_fit`: whatever is
submitted, every step that is kept has a name and texts of its own, and requirements and options
with names no other of the step has.
-/
namespace Psop.Compiler.Valid

open Json

/-! ### Fresh names -/

theorem numeral_inj {m n : Nat} (same : toString m = toString n) : m = n := by
  have values := Text.digits_numeral m
  rw [same, Text.digits_numeral] at values
  exact (Option.some.inj values).symm

/-- The candidate with a suffix. -/
def suffixed (base : String) (suffix : Nat) : String := base ++ "_" ++ toString suffix

theorem suffixed_inj {base : String} {m n : Nat} (same : suffixed base m = suffixed base n) :
    m = n := by
  have texts := congrArg String.toList same
  simp only [suffixed, String.toList_append] at texts
  exact numeral_inj (String.toList_inj.mp (List.append_cancel_left texts))

theorem base_ne_suffixed (base : String) (suffix : Nat) : base ≠ suffixed base suffix := by
  intro same
  have lengths := congrArg (fun s : String => s.toList.length) same
  simp only [suffixed, String.toList_append, List.length_append] at lengths
  have one : "_".toList.length = 1 := by decide
  omega

/-- What the search answers is the candidate or a suffixed name, and is in use only if all it tried
are. -/
theorem firstFree_spec (base : String) (used : List String) (tries suffix : Nat)
    (candidate : String) :
    (firstFree base used tries suffix candidate = candidate ∨
      ∃ k, firstFree base used tries suffix candidate = suffixed base k) ∧
    (firstFree base used tries suffix candidate ∈ used →
      candidate ∈ used ∧ ∀ k, suffix ≤ k → k < suffix + tries → suffixed base k ∈ used) := by
  induction tries generalizing suffix candidate with
  | zero => exact ⟨.inl rfl, fun inUse => ⟨inUse, fun k low high => by omega⟩⟩
  | succ tries ih =>
    rw [firstFree]
    split
    · rename_i inUse
      obtain ⟨named, exhausted⟩ := ih (suffix + 1) (suffixed base suffix)
      refine ⟨.inr (named.elim (fun same => ⟨suffix, same⟩) id), fun taken => ⟨inUse, ?_⟩⟩
      obtain ⟨first, later⟩ := exhausted taken
      intro k low high
      by_cases same : k = suffix
      · exact same ▸ first
      · exact later k (by omega) (by omega)
    · rename_i free
      exact ⟨.inl rfl, fun inUse => absurd inUse free⟩

/-- **A fresh name** is not in use. -/
theorem freshName_free (base : String) (used : List String) : freshName base used ∉ used := by
  intro taken
  obtain ⟨first, later⟩ := (firstFree_spec base used used.length 2 base).2 taken
  have distinct : (base :: (List.range' 2 used.length).map (suffixed base)).Nodup := by
    refine List.nodup_cons.mpr ⟨fun isSuffixed => ?_, ?_⟩
    · obtain ⟨k, -, same⟩ := List.mem_map.mp isSuffixed
      exact base_ne_suffixed base k same.symm
    · exact List.Nodup.map (fun _ _ same => suffixed_inj same) List.nodup_range'
  have inUse : base :: (List.range' 2 used.length).map (suffixed base) ⊆ used := by
    intro name isName
    rcases List.mem_cons.mp isName with rfl | isSuffixed
    · exact first
    · obtain ⟨k, bounds, rfl⟩ := List.mem_map.mp isSuffixed
      obtain ⟨low, high⟩ := List.mem_range'_1.mp bounds
      exact later k low high
  have lengths := (List.subperm_of_subset distinct inUse).length_le
  rw [List.length_cons, List.length_map, List.length_range'] at lengths
  omega

theorem freshName_cases (base : String) (used : List String) :
    freshName base used = base ∨ ∃ k, freshName base used = suffixed base k :=
  (firstFree_spec base used used.length 2 base).1

/-! ### Texts -/

/-- A text is not blank if a character of it is none of white space. -/
theorem isText_iff {s : String} : isText (str s) = true ↔ ∃ c ∈ s.toList, Text.isSpace c = false := by
  constructor
  · intro text
    by_contra blank
    simp only [not_exists, not_and, Bool.not_eq_false] at blank
    have left : Text.stripLeft s.toList = [] := by
      rw [Text.stripLeft_eq, List.dropWhile_eq_nil_iff]
      exact blank
    have none : Text.strip s = "" := by
      rw [Text.strip, Text.stripChars, left]
      rfl
    rw [isText, none] at text
    exact absurd text (by decide)
  · rintro ⟨c, isIn, visible⟩
    rw [isText, bne_iff_ne]
    intro none
    have empty := congrArg String.toList none
    rw [Text.strip, String.toList_ofList, Text.stripChars_eq] at empty
    have gone : List.rdropWhile Text.isSpace (s.toList.dropWhile Text.isSpace) = [] := empty
    rw [List.rdropWhile_eq_nil_iff] at gone
    have kept : c ∈ s.toList.dropWhile Text.isSpace := by
      have all := List.takeWhile_append_dropWhile (p := Text.isSpace) (l := s.toList)
      rw [← all] at isIn
      rcases List.mem_append.mp isIn with lead | rest
      · rw [List.mem_takeWhile_imp lead] at visible
        cases visible
      · exact rest
    rw [gone c kept] at visible
    cases visible

theorem isText_append_left {s t : String} (text : isText (str s) = true) :
    isText (str (s ++ t)) = true := by
  obtain ⟨c, isIn, visible⟩ := isText_iff.mp text
  exact isText_iff.mpr ⟨c, by rw [String.toList_append]; exact List.mem_append_left _ isIn, visible⟩

theorem isText_append_right {s t : String} (text : isText (str t) = true) :
    isText (str (s ++ t)) = true := by
  obtain ⟨c, isIn, visible⟩ := isText_iff.mp text
  exact isText_iff.mpr ⟨c, by rw [String.toList_append]; exact List.mem_append_right _ isIn, visible⟩

theorem nonEmptyText_isText (value : Json) {default : String} (text : isText (str default) = true) :
    isText (str (nonEmptyText value default)) = true := by
  cases value with
  | str s =>
    rw [nonEmptyText]
    split
    · exact text
    · rename_i some
      rw [isText, bne_iff_ne, Text.strip_strip]
      exact some
  | null | bool | num | arr | obj => exact text

theorem freshName_isText {base : String} (used : List String) (text : isText (str base) = true) :
    isText (str (freshName base used)) = true := by
  rcases freshName_cases base used with same | ⟨k, same⟩
  · rw [same]
    exact text
  · rw [same, suffixed]
    exact isText_append_left (isText_append_left text)

/-! ### What the builder makes of a step -/

theorem mem_dropMarks {mark c : Char} {cs : List Char} (isIn : c ∈ dropMarks mark cs) : c ∈ cs := by
  induction cs with
  | nil => exact isIn
  | cons d ds ih =>
    rw [dropMarks] at isIn
    split at isIn
    · exact List.mem_cons_of_mem _ (ih isIn)
    · exact isIn

theorem mem_subRuns {keep : Char → Bool} {mark c : Char} {inRun : Bool} {cs : List Char}
    (isIn : c ∈ subRuns keep mark inRun cs) : keep c = true ∨ c = mark := by
  fun_induction subRuns keep mark inRun cs with
  | case1 => cases isIn
  | case2 _ d _ kept ih =>
    rcases List.mem_cons.mp isIn with rfl | later
    · exact .inl kept
    · exact ih later
  | case3 _ _ _ ih => exact ih isIn
  | case4 _ _ _ _ _ ih =>
    rcases List.mem_cons.mp isIn with rfl | later
    · exact .inr rfl
    · exact ih later

theorem mem_slug {keep : Char → Bool} {mark c : Char} {value : String}
    (isIn : c ∈ (slug keep mark value).toList) : keep c = true ∨ c = mark := by
  rw [slug, String.toList_ofList, stripMarks, List.mem_reverse] at isIn
  exact mem_subRuns (mem_dropMarks (List.mem_reverse.mp (mem_dropMarks isIn)))

/-- The characters a name is made of. -/
def NameChar (c : Char) : Prop := isAlphanumeric c = true ∨ c = '_' ∨ c = '-'

theorem nameChar_low {c : Char} (named : NameChar c) : c.toNat < 123 := by
  rcases named with alphanumeric | rfl | rfl
  · simp only [isAlphanumeric, Bool.or_eq_true, Bool.and_eq_true, decide_eq_true_eq] at alphanumeric
    omega
  · decide
  · decide

instance (c : Char) : Decidable (NameChar c) := inferInstanceAs (Decidable (_ ∨ _))

theorem nameChar_lower {c : Char} (named : NameChar c) :
    Text.lowerChar c = [c.toLower] ∧ Text.isSpace c.toLower = false := by
  have all : ∀ n < 123, NameChar (Char.ofNat n) → Text.lowerChar (Char.ofNat n) =
      [(Char.ofNat n).toLower] ∧ Text.isSpace (Char.ofNat n).toLower = false := by decide
  have same : Char.ofNat c.toNat = c := Char.ofNat_toNat c
  have own := all c.toNat (nameChar_low named)
  rw [same] at own
  exact own named

/-- A lowered name that is not empty is not blank. -/
theorem lower_isText {s : String} (named : ∀ c ∈ s.toList, NameChar c) (some : Text.lower s ≠ "") :
    isText (str (Text.lower s)) = true := by
  rw [isText_iff]
  cases chars : s.toList with
  | nil =>
    rw [Text.lower, chars] at some
    exact absurd rfl some
  | cons c cs =>
    obtain ⟨one, visible⟩ := nameChar_lower (named c (chars ▸ List.mem_cons_self))
    refine ⟨c.toLower, ?_, visible⟩
    rw [Text.lower, String.toList_ofList, chars, List.flatMap_cons, one]
    exact List.mem_append_left _ (List.mem_singleton_self _)

theorem evidenceKey_isText (value : Json) {fallback : String} (used : List String)
    (text : isText (str fallback) = true) :
    isText (str (safeEvidenceKey value fallback used)) = true := by
  rw [safeEvidenceKey]
  apply freshName_isText
  split
  · exact text
  · rename_i some
    refine lower_isText (fun c isIn => ?_) some
    rcases mem_slug isIn with kept | rfl
    · simp only [Bool.or_eq_true, beq_iff_eq] at kept
      rcases kept with (alphanumeric | line) | dash
      · exact .inl alphanumeric
      · exact .inr (.inl line)
      · exact .inr (.inr dash)
    · exact .inr (.inl rfl)

/-- A step is never named like one of the reserved ids, and has a name. -/
theorem stepId_spec (value : String) (index : Nat) (used : List String) :
    safeStepId value index used ∉ used ∧ safeStepId value index used ∉ scaffoldNodeIds ∧
      safeStepId value index used ≠ "" := by
  have plain : ∀ id ∈ scaffoldNodeIds, '_' ∉ id.toList ∧ id ++ "_stage" ∉ scaffoldNodeIds ∧ id ≠ "" := by
    decide
  have named : ∀ base : String, base ∉ scaffoldNodeIds → base ≠ "" →
      freshName base used ∉ scaffoldNodeIds ∧ freshName base used ≠ "" := by
    intro base other some
    rcases freshName_cases base used with same | ⟨k, same⟩
    · rw [same]
      exact ⟨other, some⟩
    · have line : '_' ∈ (suffixed base k).toList := by
        simp [suffixed]
      rw [same]
      refine ⟨fun isReserved => (plain _ isReserved).1 line, fun empty => ?_⟩
      rw [empty] at line
      cases line
  have base : ∀ normalized : String, normalized ≠ "" →
      (if normalized ∈ scaffoldNodeIds then normalized ++ "_stage" else normalized) ∉
        scaffoldNodeIds ∧
      (if normalized ∈ scaffoldNodeIds then normalized ++ "_stage" else normalized) ≠ "" := by
    intro normalized some
    split
    · rename_i isReserved
      refine ⟨(plain _ isReserved).2.1, fun empty => ?_⟩
      exact some (String.append_eq_empty_iff.mp empty).1
    · rename_i other
      exact ⟨other, some⟩
  refine ⟨freshName_free _ _, ?_⟩
  unfold safeStepId
  refine (fun both => named _ both.1 both.2) (base _ ?_)
  split
  · exact fun empty => absurd (String.append_eq_empty_iff.mp empty).1 (by decide)
  · rename_i some
    exact some

/-- Options with texts for their names and event kinds, no two of them with one name. -/
structure OptionsFit (options : List EvidenceOption) : Prop where
  distinct : (options.map EvidenceOption.optionKey).Nodup
  keys : ∀ option ∈ options, isText (str option.optionKey) = true
  events : ∀ option ∈ options, isText (str option.eventKind) = true

structure RequirementsFit (requirements : List EvidenceRequirement) : Prop where
  distinct : (requirements.map EvidenceRequirement.requirementKey).Nodup
  keys : ∀ requirement ∈ requirements, isText (str requirement.requirementKey) = true
  descriptions : ∀ requirement ∈ requirements, isText (str requirement.description) = true
  options : ∀ requirement ∈ requirements,
    requirement.options ≠ [] ∧ OptionsFit requirement.options

theorem eventKind_isText (kind : String) : isText (str (eventKindForEvidence kind)) = true := by
  rw [eventKindForEvidence]
  split <;> decide

theorem options_fit (used : List String) (index : Nat) (raws : List Json) :
    OptionsFit (normalizeOptions used index raws) ∧
      ∀ option ∈ normalizeOptions used index raws, option.optionKey ∉ used := by
  induction raws generalizing used index with
  | nil => exact ⟨⟨List.nodup_nil, nofun, nofun⟩, nofun⟩
  | cons raw rest ih =>
    rw [normalizeOptions]
    split
    · obtain ⟨fit, fresh⟩ := ih (used ++ [(normalizeOption used index raw).optionKey]) (index + 1)
      refine ⟨⟨List.nodup_cons.mpr ⟨fun again => ?_, fit.distinct⟩, ?_, ?_⟩, ?_⟩
      · obtain ⟨option, isIn, same⟩ := List.mem_map.mp again
        exact fresh option isIn (same ▸ List.mem_append_right _ (List.mem_singleton_self _))
      · refine List.forall_mem_cons.mpr ⟨evidenceKey_isText _ _ ?_, fit.keys⟩
        exact isText_append_left (isText_append_right (by decide))
      · exact List.forall_mem_cons.mpr ⟨nonEmptyText_isText _ (eventKind_isText _), fit.events⟩
      · refine List.forall_mem_cons.mpr ⟨freshName_free _ _, fun option isIn inUse => ?_⟩
        exact fresh option isIn (List.mem_append_left _ inUse)
    · exact ih used (index + 1)

theorem requirements_fit (used : List String) (index : Nat) (raws : List Json) :
    RequirementsFit (normalizeRequirements used index raws) ∧
      ∀ requirement ∈ normalizeRequirements used index raws, requirement.requirementKey ∉ used := by
  induction raws generalizing used index with
  | nil => exact ⟨⟨List.nodup_nil, nofun, nofun, nofun⟩, nofun⟩
  | cons raw rest ih =>
    rw [normalizeRequirements]
    dsimp only
    split
    · obtain ⟨fit, fresh⟩ := ih
        (used ++ [(normalizeRequirement used index (requirementItem raw)).requirementKey]) (index + 1)
      split
      · refine ⟨fit, fun requirement isIn inUse => ?_⟩
        exact fresh requirement isIn (List.mem_append_left _ inUse)
      · rename_i some
        refine ⟨⟨List.nodup_cons.mpr ⟨fun again => ?_, fit.distinct⟩, ?_, ?_, ?_⟩, ?_⟩
        · obtain ⟨requirement, isIn, same⟩ := List.mem_map.mp again
          exact fresh requirement isIn (same ▸ List.mem_append_right _ (List.mem_singleton_self _))
        · refine List.forall_mem_cons.mpr ⟨evidenceKey_isText _ _ ?_, fit.keys⟩
          exact isText_append_left (by decide)
        · refine List.forall_mem_cons.mpr ⟨nonEmptyText_isText _ ?_, fit.descriptions⟩
          exact isText_append_left (by decide)
        · refine List.forall_mem_cons.mpr ⟨⟨fun none => ?_, (options_fit _ _ _).1⟩, fit.options⟩
          exact some (List.isEmpty_iff.mpr none)
        · refine List.forall_mem_cons.mpr ⟨freshName_free _ _, fun requirement isIn inUse => ?_⟩
          exact fresh requirement isIn (List.mem_append_left _ inUse)
    · exact ih used (index + 1)

theorem siteState_fits : RequirementsFit [siteState] := by
  refine ⟨by decide, by decide, by decide, fun requirement isIn => ?_⟩
  rw [List.mem_singleton.mp isIn]
  exact ⟨by decide, by decide, by decide, by decide⟩

/-- The evidence a step asks for: something, and of the right form. -/
theorem evidence_fits {raw : Json} {requirements : List EvidenceRequirement}
    (normalized : normalizeExpectedEvidence raw = .ok requirements) :
    requirements ≠ [] ∧ RequirementsFit requirements := by
  rw [normalizeExpectedEvidence] at normalized
  split at normalized
  · cases normalized
  · rename_i raws _
    obtain rfl := Except.ok.inj normalized
    split
    · exact ⟨List.cons_ne_nil _ _, siteState_fits⟩
    · rename_i some
      exact ⟨fun none => some (List.isEmpty_iff.mpr none), (requirements_fit [] 1 raws).1⟩

/-- A step as the builder leaves it. -/
structure StepFits (step : ScaffoldStep) : Prop where
  own : step.id ∉ scaffoldNodeIds
  named : step.id ≠ ""
  title : isText (str step.title) = true
  goal : isText (str step.goal) = true
  sourceEvidence : isText (str step.sourceEvidence) = true
  asks : step.expectedEvidence ≠ []
  evidence : RequirementsFit step.expectedEvidence
  optional : ∀ entry ∈ step.optional, entry.1 ∈ optionalKeys

theorem step_fits {used : List String} {index : Nat} {raw : Json} {step : ScaffoldStep}
    (normalized : normalizeStep used index raw = .ok step) : StepFits step ∧ step.id ∉ used := by
  rw [normalizeStep] at normalized
  split at normalized
  · cases normalized
  dsimp only at normalized
  cases evidence : normalizeExpectedEvidence (raw.field "expected_evidence") with
  | error message =>
    rw [evidence] at normalized
    cases normalized
  | ok requirements =>
    rw [evidence] at normalized
    obtain rfl := Except.ok.inj normalized
    obtain ⟨asks, fit⟩ := evidence_fits evidence
    obtain ⟨free, own, named⟩ := stepId_spec
      (((raw.field "id").or (raw.field "step_id")).or
        (str (nonEmptyText ((raw.field "title").or (raw.field "name")) ("步骤 " ++ toString index)))).toStr
      index used
    refine ⟨⟨own, named, ?_, ?_, ?_, asks, fit, fun entry isIn => ?_⟩, free⟩
    · exact nonEmptyText_isText _ (isText_append_left (by decide))
    · exact nonEmptyText_isText _ (isText_append_right (by decide))
    · exact nonEmptyText_isText _ (isText_append_right (by decide))
    · obtain ⟨key, isKey, given⟩ := List.mem_filterMap.mp isIn
      split at given
      · cases given
      · rw [← Option.some.inj given]
        exact isKey

theorem steps_fit {used : List String} {index : Nat} {raws : List Json} {steps : List ScaffoldStep}
    (normalized : normalizeSteps used index raws = .ok steps) :
    (∀ step ∈ steps, StepFits step ∧ step.id ∉ used) ∧ (steps.map ScaffoldStep.id).Nodup := by
  induction raws generalizing used index steps with
  | nil =>
    obtain rfl := Except.ok.inj normalized
    exact ⟨nofun, List.nodup_nil⟩
  | cons raw rest ih =>
    rw [normalizeSteps] at normalized
    cases isStep : normalizeStep used index raw with
    | error message => rw [isStep] at normalized; cases normalized
    | ok step =>
      rw [isStep] at normalized
      cases isLater : normalizeSteps (used ++ [step.id]) (index + 1) rest with
      | error message =>
        have normalized : (normalizeSteps (used ++ [step.id]) (index + 1) rest >>= fun later =>
          Except.ok (step :: later)) = .ok steps := normalized
        rw [isLater] at normalized
        cases normalized
      | ok later =>
        have normalized : (normalizeSteps (used ++ [step.id]) (index + 1) rest >>= fun later =>
          Except.ok (step :: later)) = .ok steps := normalized
        rw [isLater] at normalized
        obtain rfl := Except.ok.inj normalized
        obtain ⟨fit, distinct⟩ := ih isLater
        refine ⟨List.forall_mem_cons.mpr ⟨step_fits isStep, fun other isIn => ?_⟩,
          List.nodup_cons.mpr ⟨fun again => ?_, distinct⟩⟩
        · exact ⟨(fit other isIn).1, fun inUse => (fit other isIn).2 (List.mem_append_left _ inUse)⟩
        · obtain ⟨other, isIn, same⟩ := List.mem_map.mp again
          exact (fit other isIn).2 (same ▸ List.mem_append_right _ (List.mem_singleton_self _))

end Psop.Compiler.Valid
