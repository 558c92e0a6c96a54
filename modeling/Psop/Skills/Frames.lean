import Mathlib.Data.List.Basic
import Mathlib.Data.List.Dedup
import Mathlib.Tactic.Linarith

/-!
The frames a video is looked at through, as `domain/skills/video_analysis.py` picks them: samples
along the timeline, the first scene changes of each minute, and a merge of the two in which a scene
change stands in for a sample next to it.

The merge is a greedy scan. `Merged` is what it keeps: the chosen frames stand apart, and every
frame seen so far is chosen or close to a chosen scene change. A sample is given up only to a scene
change, samples stand apart from each other, and so nothing loses its cover (`merged_step`).
`frame_candidates` puts it together. The sampling interval divides the duration as a float; the
results hold for every rounding of the quotient.
-/
namespace Psop.Skills.Frames

/-! ### The code -/

def timelineTargetKeyframes : Int := 60
def defaultTimelineIntervalMs : Int := 30000
def sceneBucketMs : Int := 60000
def sceneFramesPerBucket : Nat := 2
def frameDedupWindowMs : Int := 5000

inductive FrameSource
  | sceneChange
  | timelineSample
  | fallbackFirstFrame
deriving DecidableEq

def priority : FrameSource → Nat
  | .sceneChange => 0
  | .timelineSample => 1
  | .fallbackFirstFrame => 2

/-- `_FrameCandidate` -/
structure Candidate where
  timestampMs : Int
  frameSource : FrameSource
deriving DecidableEq

/-- `sorted(set(values))` -/
def sortedSet (values : List Int) : List Int := values.dedup.mergeSort fun a b => a ≤ b

/-- `list(range(0, stop, step))` for a positive step. -/
def range (stop step : Int) : List Int :=
  (List.range ((stop + step - 1) / step).toNat).map fun (k : Nat) => k * step

section
-- `math.ceil(duration_ms / target)`: a quotient of floats, rounded up.
variable (ceilQuotient : Int → Int → Int)

def target (maxKeyframes : Int) : Int := max 1 (min timelineTargetKeyframes maxKeyframes)

def timelineIntervalMs (durationMs maxKeyframes : Int) : Int :=
  if durationMs ≤ 0 then 0
  else max defaultTimelineIntervalMs (ceilQuotient durationMs (target maxKeyframes))

def timelineSampleTimestampsMs (durationMs maxKeyframes : Int) : List Int :=
  if durationMs ≤ 0 ∨ maxKeyframes ≤ 0 then []
  else
    let target := target maxKeyframes
    let intervalMs := timelineIntervalMs ceilQuotient durationMs maxKeyframes
    let values := (range (max 1 durationMs) intervalMs).take target.toNat
    let finalTimestamp := max 0 (durationMs - 1000)
    sortedSet <| match values.getLast? with
      | none => values
      | some last =>
        if finalTimestamp - last > intervalMs / 2 then
          if (values.length : Int) < target then values ++ [finalTimestamp]
          else values.dropLast ++ [finalTimestamp]
        else values

/-- `buckets.setdefault(bucket, [])` and, while there is room, `append`. -/
def addToBucket (timestampMs : Int) : List (Int × List Int) → List (Int × List Int)
  | [] => [(timestampMs / sceneBucketMs, [timestampMs])]
  | (bucket, items) :: rest =>
    if bucket = timestampMs / sceneBucketMs then
      (bucket, if items.length < sceneFramesPerBucket then items ++ [timestampMs] else items) :: rest
    else (bucket, items) :: addToBucket timestampMs rest

/-- The last loop: it stops as soon as `limit` timestamps are selected. -/
def selectFrom (limit : Int) (selected : List Int) : List Int → List Int
  | [] => selected
  | timestampMs :: rest =>
    let selected := selected ++ [timestampMs]
    if (selected.length : Int) ≥ limit then selected else selectFrom limit selected rest

def selectSceneTimestampsMs (sceneTimestampsMs : List Int) (durationMs limit : Int) : List Int :=
  if limit ≤ 0 then []
  else
    let kept := (sortedSet sceneTimestampsMs).filter fun timestampMs =>
      ¬(timestampMs < 0 ∨ (durationMs > 0 ∧ timestampMs ≥ durationMs))
    let buckets := kept.foldl (fun buckets timestampMs => addToBucket timestampMs buckets) []
    selectFrom limit [] ((buckets.mergeSort fun a b => a.1 ≤ b.1).flatMap Prod.snd)

/-- The order of the merge: by time, then by priority. -/
def before (a b : Candidate) : Bool :=
  a.timestampMs < b.timestampMs ∨
    (a.timestampMs = b.timestampMs ∧ priority a.frameSource ≤ priority b.frameSource)

def close (a b : Candidate) : Bool := |a.timestampMs - b.timestampMs| ≤ frameDedupWindowMs

/-- One round of the merge. -/
def mergeCandidate (selected : List Candidate) (candidate : Candidate) : List Candidate :=
  match selected.findIdx? fun existing => close existing candidate with
  | none => selected ++ [candidate]
  | some closeIndex =>
    match selected[closeIndex]? with
    | none => selected
    | some existing =>
      if priority candidate.frameSource < priority existing.frameSource then
        selected.set closeIndex candidate
      else selected

def mergeFrameCandidates (candidates : List Candidate) (maxKeyframes : Int) : List Candidate :=
  let selected := (candidates.mergeSort before).foldl mergeCandidate []
  (selected.mergeSort fun a b => a.timestampMs ≤ b.timestampMs).take maxKeyframes.toNat

def remaining (durationMs maxKeyframes : Int) : Int :=
  max 0 (maxKeyframes - (timelineSampleTimestampsMs ceilQuotient durationMs maxKeyframes).length)

def buildFrameCandidates (durationMs : Int) (sceneTimestampsMs : List Int) (maxKeyframes : Int) :
    List Candidate :=
  let timeline := (timelineSampleTimestampsMs ceilQuotient durationMs maxKeyframes).map fun t =>
    { timestampMs := t, frameSource := .timelineSample }
  let scene := (selectSceneTimestampsMs sceneTimestampsMs durationMs
      (remaining ceilQuotient durationMs maxKeyframes)).map fun t =>
    { timestampMs := t, frameSource := .sceneChange }
  mergeFrameCandidates (timeline ++ scene) maxKeyframes

end

/-! ### The merge -/

/-- Later frames come more than the deduplication window after earlier ones. -/
def Apart (a b : Candidate) : Prop := a.timestampMs + frameDedupWindowMs < b.timestampMs

/-- Chosen, or close to a chosen scene change. -/
def Covered (selected : List Candidate) (frame : Candidate) : Prop :=
  frame ∈ selected ∨
    ∃ scene ∈ selected, scene.frameSource = .sceneChange ∧ close scene frame = true

/-- What the merge keeps of the frames it has seen. -/
structure Merged (seen selected : List Candidate) : Prop where
  apart : selected.Pairwise Apart
  chosen : ∀ frame ∈ selected, frame ∈ seen
  covered : ∀ frame ∈ seen, Covered selected frame
  fewer : selected.length ≤ seen.length

theorem close_iff {a b : Candidate} : close a b = true ↔
    -frameDedupWindowMs ≤ a.timestampMs - b.timestampMs ∧
      a.timestampMs - b.timestampMs ≤ frameDedupWindowMs := by
  rw [close, decide_eq_true_eq, abs_le]

/-- The round, where the chosen frames stand apart and none is later than the candidate: it is
added, or the last chosen frame is close to it and gives way to a higher priority. -/
theorem merge_cases {selected : List Candidate} {candidate : Candidate}
    (apart : selected.Pairwise Apart)
    (late : ∀ frame ∈ selected, frame.timestampMs ≤ candidate.timestampMs) :
    (mergeCandidate selected candidate = selected ++ [candidate] ∧
        ∀ frame ∈ selected, close frame candidate = false) ∨
      ∃ earlier existing, selected = earlier ++ [existing] ∧ close existing candidate = true ∧
        mergeCandidate selected candidate =
          if priority candidate.frameSource < priority existing.frameSource then
            earlier ++ [candidate] else selected := by
  rw [mergeCandidate]
  cases found : selected.findIdx? fun existing => close existing candidate with
  | none => exact .inl ⟨rfl, List.findIdx?_eq_none_iff.mp found⟩
  | some i =>
    right
    obtain ⟨inside, isClose, -⟩ := List.findIdx?_eq_some_iff_getElem.mp found
    have parts : selected = selected.take i ++ selected[i] :: selected.drop (i + 1) := by
      rw [← List.drop_eq_getElem_cons inside, List.take_append_drop]
    -- A chosen frame after a close one would be later than the candidate.
    have last : selected.drop (i + 1) = [] := by
      rw [List.eq_nil_iff_forall_not_mem]
      intro frame isLater
      have sorted := apart
      rw [parts, List.pairwise_append, List.pairwise_cons] at sorted
      have gap : Apart selected[i] frame := sorted.2.1.1 frame isLater
      have bound := late frame (List.mem_of_mem_drop isLater)
      have near := (close_iff.mp isClose).1
      rw [Apart] at gap
      omega
    rw [last] at parts
    refine ⟨selected.take i, selected[i], parts, isClose, ?_⟩
    have isExisting : selected[i]? = some selected[i] := List.getElem?_eq_getElem inside
    have replaced : selected.set i candidate = selected.take i ++ [candidate] := by
      rw [List.set_eq_take_append_cons_drop, if_pos inside, last]
    simp only [isExisting, replaced]

variable {seen selected : List Candidate} {candidate : Candidate}

theorem Covered.add (covered : Covered selected candidate) (frame : Candidate) :
    Covered (selected ++ [frame]) candidate := by
  rcases covered with isIn | ⟨scene, isIn, isScene, isClose⟩
  · exact .inl (List.mem_append_left _ isIn)
  · exact .inr ⟨scene, List.mem_append_left _ isIn, isScene, isClose⟩

/-- Frames that are no scene changes stand apart from each other. -/
def SamplesApart (frames : List Candidate) : Prop :=
  ∀ a ∈ frames, ∀ b ∈ frames, a.frameSource ≠ .sceneChange → b.frameSource ≠ .sceneChange →
    close a b = true → a = b

theorem priority_zero {source : FrameSource} :
    source = .sceneChange ↔ priority source = 0 := by
  cases source <;> simp [priority]

/-- **One round of the merge** keeps the chosen frames apart and everything seen covered. -/
theorem merged_step (merged : Merged seen selected)
    (late : ∀ frame ∈ seen, frame.timestampMs ≤ candidate.timestampMs)
    (samples : SamplesApart (seen ++ [candidate])) :
    Merged (seen ++ [candidate]) (mergeCandidate selected candidate) := by
  rcases merge_cases merged.apart fun frame isIn => late frame (merged.chosen frame isIn) with
    ⟨added, far⟩ | ⟨earlier, existing, rfl, isClose, round⟩
  · rw [added]
    refine ⟨?_, ?_, ?_, ?_⟩
    · rw [List.pairwise_append]
      refine ⟨merged.apart, List.pairwise_singleton _ _, fun frame isIn other isNew => ?_⟩
      rw [List.mem_singleton.mp isNew, Apart]
      have notClose := far frame isIn
      have bound := late frame (merged.chosen frame isIn)
      rw [← Bool.not_eq_true, close_iff, not_and_or] at notClose
      have positive : (0 : Int) ≤ frameDedupWindowMs := by decide
      omega
    · intro frame isIn
      rcases List.mem_append.mp isIn with old | isNew
      · exact List.mem_append_left _ (merged.chosen frame old)
      · exact List.mem_append_right _ isNew
    · intro frame isIn
      rcases List.mem_append.mp isIn with old | isNew
      · exact (merged.covered frame old).add candidate
      · exact .inl (List.mem_append_right _ isNew)
    · rw [List.length_append, List.length_append]
      exact Nat.add_le_add_right merged.fewer _
  · have isExisting : existing ∈ earlier ++ [existing] :=
      List.mem_append_right _ List.mem_cons_self
    have existingSeen := merged.chosen existing isExisting
    rw [round]
    split
    · rename_i higher
      -- The candidate is a scene change, the frame it replaces a sample.
      refine ⟨?_, ?_, ?_, ?_⟩
      · have apart := merged.apart
        rw [List.pairwise_append] at apart ⊢
        refine ⟨apart.1, List.pairwise_singleton _ _, fun frame isIn other isNew => ?_⟩
        have gap : Apart frame existing := apart.2.2 frame isIn existing List.mem_cons_self
        have bound := late existing existingSeen
        rw [List.mem_singleton.mp isNew, Apart]
        rw [Apart] at gap
        omega
      · intro frame isIn
        rcases List.mem_append.mp isIn with old | isNew
        · exact List.mem_append_left _ (merged.chosen frame (List.mem_append_left _ old))
        · exact List.mem_append_right _ isNew
      · have isScene : candidate.frameSource = .sceneChange ∨
            candidate.frameSource ≠ .sceneChange ∧ existing.frameSource ≠ .sceneChange := by
          by_cases isScene : candidate.frameSource = .sceneChange
          · exact .inl isScene
          · refine .inr ⟨isScene, fun existingScene => ?_⟩
            rw [priority_zero.mp existingScene] at higher
            exact Nat.not_lt_zero _ higher
        have isNew : candidate ∈ earlier ++ [candidate] :=
          List.mem_append_right _ List.mem_cons_self
        have existingCovered : Covered (earlier ++ [candidate]) existing := by
          rcases isScene with isScene | ⟨notScene, existingSample⟩
          · refine .inr ⟨candidate, isNew, isScene, ?_⟩
            rw [close_iff] at isClose ⊢
            omega
          · have same := samples existing (List.mem_append_left _ existingSeen) candidate
              (List.mem_append_right _ List.mem_cons_self) existingSample notScene isClose
            rw [same]
            exact .inl isNew
        intro frame isIn
        rcases List.mem_append.mp isIn with old | isLast
        · rcases merged.covered frame old with isChosen | ⟨scene, isChosen, sceneSource, near⟩
          · rcases List.mem_append.mp isChosen with kept | isIt
            · exact .inl (List.mem_append_left _ kept)
            · rw [List.mem_singleton.mp isIt]
              exact existingCovered
          · rcases List.mem_append.mp isChosen with kept | isIt
            · exact .inr ⟨scene, List.mem_append_left _ kept, sceneSource, near⟩
            · rw [List.mem_singleton.mp isIt] at sceneSource
              rw [priority_zero.mp sceneSource] at higher
              exact absurd higher (Nat.not_lt_zero _)
        · rw [List.mem_singleton.mp isLast]
          exact .inl isNew
      · have fewer := merged.fewer
        rw [List.length_append, List.length_singleton] at fewer ⊢
        rw [List.length_append, List.length_singleton]
        exact Nat.le_succ_of_le fewer
    · rename_i lower
      refine ⟨merged.apart, fun frame isIn => List.mem_append_left _ (merged.chosen frame isIn),
        fun frame isIn => ?_, ?_⟩
      · rcases List.mem_append.mp isIn with old | isLast
        · exact merged.covered frame old
        · rw [List.mem_singleton.mp isLast]
          by_cases existingScene : existing.frameSource = .sceneChange
          · exact .inr ⟨existing, isExisting, existingScene, isClose⟩
          · have notScene : candidate.frameSource ≠ .sceneChange := by
              intro isScene
              rw [priority_zero.mp isScene] at lower
              exact existingScene (priority_zero.mpr (Nat.le_zero.mp (Nat.not_lt.mp lower)))
            have same := samples existing (List.mem_append_left _ existingSeen) candidate
              (List.mem_append_right _ List.mem_cons_self) existingScene notScene isClose
            rw [← same]
            exact .inl isExisting
      · have grown : seen.length ≤ (seen ++ [candidate]).length := by
          rw [List.length_append]
          exact Nat.le_add_right _ _
        exact Nat.le_trans merged.fewer grown

/-- The whole scan. -/
theorem merged_run {frames : List Candidate} (merged : Merged seen selected)
    (sorted : (seen ++ frames).Pairwise fun a b => a.timestampMs ≤ b.timestampMs)
    (samples : SamplesApart (seen ++ frames)) :
    Merged (seen ++ frames) (frames.foldl mergeCandidate selected) := by
  induction frames generalizing seen selected with
  | nil => rwa [List.append_nil]
  | cons candidate frames ih =>
    have split : seen ++ candidate :: frames = (seen ++ [candidate]) ++ frames := by simp
    have late : ∀ frame ∈ seen, frame.timestampMs ≤ candidate.timestampMs := fun frame isIn =>
      (List.pairwise_append.mp sorted).2.2 frame isIn candidate List.mem_cons_self
    rw [split] at sorted samples ⊢
    refine ih (merged_step merged late ?_) sorted samples
    intro a isA b isB
    exact samples a (List.mem_append_left _ isA) b (List.mem_append_left _ isB)

theorem before_trans (a b c : Candidate) (first : before a b = true) (second : before b c = true) :
    before a c = true := by
  simp only [before, decide_eq_true_eq] at *
  omega

theorem before_total (a b : Candidate) : (before a b || before b a) = true := by
  simp only [before, Bool.or_eq_true, decide_eq_true_eq]
  omega

/-- What the merge gives for any frames whose samples stand apart. -/
theorem merged_candidates {candidates : List Candidate} (samples : SamplesApart candidates)
    {maxKeyframes : Int} (few : (candidates.length : Int) ≤ maxKeyframes) :
    Merged candidates (mergeFrameCandidates candidates maxKeyframes) := by
  have mem : ∀ frame, frame ∈ candidates.mergeSort before ↔ frame ∈ candidates := fun _ =>
    List.mem_mergeSort
  have sorted : (candidates.mergeSort before).Pairwise fun a b =>
      a.timestampMs ≤ b.timestampMs := by
    refine (List.pairwise_mergeSort before_trans before_total candidates).imp fun {a b} order => ?_
    simp only [before, decide_eq_true_eq] at order
    omega
  have start : Merged [] [] := ⟨.nil, nofun, nofun, Nat.le_refl _⟩
  have run := @merged_run [] [] (candidates.mergeSort before) start sorted
    (fun a isA b isB => samples a ((mem a).mp isA) b ((mem b).mp isB))
  rw [List.nil_append] at run
  have inOrder : ((candidates.mergeSort before).foldl mergeCandidate []).Pairwise fun a b =>
      (a.timestampMs ≤ b.timestampMs : Bool) := by
    refine run.apart.imp fun {a b} gap => ?_
    have positive : (0 : Int) ≤ frameDedupWindowMs := by decide
    rw [Apart] at gap
    rw [decide_eq_true_eq]
    omega
  have fewer := run.fewer
  rw [List.length_mergeSort] at fewer
  rw [mergeFrameCandidates, List.mergeSort_of_pairwise inOrder, List.take_of_length_le (by omega)]
  exact ⟨run.apart, fun frame isIn => (mem frame).mp (run.chosen frame isIn),
    fun frame isIn => run.covered frame ((mem frame).mpr isIn), fewer⟩

/-! ### The timeline -/

theorem mem_sortedSet {value : Int} {values : List Int} : value ∈ sortedSet values ↔ value ∈ values := by
  rw [sortedSet, List.mem_mergeSort, List.mem_dedup]

theorem sortedSet_length (values : List Int) : (sortedSet values).length ≤ values.length := by
  rw [sortedSet, List.length_mergeSort]
  exact (List.dedup_sublist values).length_le

/-- Different values are more than the gap apart. -/
def Gapped (gap : Int) (values : List Int) : Prop := values.Pairwise fun a b => a + gap < b

theorem Gapped.eq_of_near {gap : Int} {values : List Int} (gapped : Gapped gap values) {a b : Int}
    (isA : a ∈ values) (isB : b ∈ values) (near : -gap ≤ a - b ∧ a - b ≤ gap) : a = b := by
  induction values with
  | nil => cases isA
  | cons first rest ih =>
    obtain ⟨above, later⟩ := List.pairwise_cons.mp gapped
    rcases List.mem_cons.mp isA with rfl | laterA
    · rcases List.mem_cons.mp isB with rfl | laterB
      · rfl
      · have := above b laterB
        omega
    · rcases List.mem_cons.mp isB with rfl | laterB
      · have := above a laterA
        omega
      · exact ih later laterA laterB

theorem range_gapped {stop step gap : Int} (positive : 0 < step) (wide : gap < step) :
    Gapped gap (range stop step) := by
  rw [Gapped, range, List.pairwise_map]
  refine List.pairwise_lt_range.imp fun {i j} less => ?_
  have next : ((i : Int) + 1) * step ≤ (j : Int) * step :=
    Int.mul_le_mul_of_nonneg_right (by omega) (Int.le_of_lt positive)
  rw [Int.add_mul, Int.one_mul] at next
  omega

theorem range_inside {stop step t : Int} (positive : 0 < step) (isIn : t ∈ range stop step) :
    0 ≤ t ∧ t < stop := by
  obtain ⟨k, isIndex, rfl⟩ := List.mem_map.mp isIn
  have below := List.mem_range.mp isIndex
  have whole : (k : Int) + 1 ≤ (stop + step - 1) / step := by omega
  have product := (Int.le_ediv_iff_mul_le positive).mp whole
  rw [Int.add_mul, Int.one_mul] at product
  exact ⟨Int.mul_nonneg (by omega) (by omega), by omega⟩

/-- The values stand apart and lie within the video. -/
structure Sampled (durationMs : Int) (values : List Int) : Prop where
  gapped : Gapped frameDedupWindowMs values
  inside : ∀ t ∈ values, 0 ≤ t ∧ t < durationMs

theorem Sampled.push {durationMs finalTimestamp : Int} {values : List Int}
    (sampled : Sampled durationMs values)
    (beyond : ∀ t ∈ values, t + frameDedupWindowMs < finalTimestamp)
    (inside : 0 ≤ finalTimestamp ∧ finalTimestamp < durationMs) :
    Sampled durationMs (values ++ [finalTimestamp]) := by
  refine ⟨?_, fun t isIn => ?_⟩
  · rw [Gapped, List.pairwise_append]
    refine ⟨sampled.gapped, List.pairwise_singleton _ _, fun t isIn other isNew => ?_⟩
    rw [List.mem_singleton.mp isNew]
    exact beyond t isIn
  · rcases List.mem_append.mp isIn with old | isNew
    · exact sampled.inside t old
    · rw [List.mem_singleton.mp isNew]
      exact inside

theorem Sampled.dropLast {durationMs : Int} {values : List Int}
    (sampled : Sampled durationMs values) : Sampled durationMs values.dropLast :=
  ⟨sampled.gapped.sublist (List.dropLast_sublist _), fun t isIn =>
    sampled.inside t (List.dropLast_subset _ isIn)⟩

theorem Sampled.le_last {durationMs last : Int} {values : List Int}
    (sampled : Sampled durationMs values) (isLast : values.getLast? = some last) :
    ∀ t ∈ values, t ≤ last := by
  obtain ⟨front, rfl⟩ := List.getLast?_eq_some_iff.mp isLast
  intro t isIn
  rcases List.mem_append.mp isIn with old | isIt
  · have gap := (List.pairwise_append.mp sampled.gapped).2.2 t old last List.mem_cons_self
    have positive : (0 : Int) ≤ frameDedupWindowMs := by decide
    omega
  · exact Int.le_of_eq (List.mem_singleton.mp isIt)

theorem target_bounds {maxKeyframes : Int} (some : 1 ≤ maxKeyframes) :
    1 ≤ target maxKeyframes ∧ target maxKeyframes ≤ maxKeyframes := by
  rw [target]
  omega

/-- The samples stand apart, lie within the video and are no more than the frames asked for. -/
theorem timeline_sampled (ceilQuotient : Int → Int → Int) {durationMs maxKeyframes : Int}
    (lasts : 0 < durationMs) (some : 1 ≤ maxKeyframes) :
    ∃ values, timelineSampleTimestampsMs ceilQuotient durationMs maxKeyframes = sortedSet values ∧
      Sampled durationMs values ∧ (values.length : Int) ≤ maxKeyframes := by
  obtain ⟨positive, within⟩ := target_bounds some
  have interval : defaultTimelineIntervalMs ≤
      timelineIntervalMs ceilQuotient durationMs maxKeyframes := by
    rw [timelineIntervalMs, if_neg (by omega)]
    exact Int.le_max_left _ _
  have wide : (30000 : Int) ≤ timelineIntervalMs ceilQuotient durationMs maxKeyframes := interval
  have window : frameDedupWindowMs = 5000 := rfl
  rw [timelineSampleTimestampsMs, if_neg (by omega)]
  generalize timelineIntervalMs ceilQuotient durationMs maxKeyframes = intervalMs at wide ⊢
  dsimp only
  have whole : Sampled durationMs ((range (max 1 durationMs) intervalMs).take
      (target maxKeyframes).toNat) := by
    have gapped := @range_gapped (max 1 durationMs) intervalMs frameDedupWindowMs (by omega)
      (by omega)
    refine ⟨gapped.sublist (List.take_sublist _ _), fun t isIn => ?_⟩
    have inside := range_inside (by omega) (List.mem_of_mem_take isIn)
    omega
  have few : ((range (max 1 durationMs) intervalMs).take (target maxKeyframes).toNat).length ≤
      (target maxKeyframes).toNat := List.length_take_le _ _
  generalize (range (max 1 durationMs) intervalMs).take (target maxKeyframes).toNat = values
    at whole few ⊢
  cases isLast : values.getLast? with
  | none => exact ⟨values, rfl, whole, by omega⟩
  | some last =>
    dsimp only
    split
    · rename_i far
      have below := whole.le_last isLast
      have lastInside := whole.inside last (List.mem_of_getLast? isLast)
      have beyond : ∀ t ∈ values, t + frameDedupWindowMs < max 0 (durationMs - 1000) := by
        intro t isIn
        have := below t isIn
        omega
      have inside : 0 ≤ max 0 (durationMs - 1000) ∧ max 0 (durationMs - 1000) < durationMs := by
        omega
      split
      · rename_i room
        refine ⟨_, rfl, whole.push beyond inside, ?_⟩
        rw [List.length_append, List.length_singleton]
        omega
      · refine ⟨_, rfl, whole.dropLast.push (fun t isIn =>
          beyond t (List.dropLast_subset _ isIn)) inside, ?_⟩
        rw [List.length_append, List.length_singleton, List.length_dropLast]
        have nonempty : 0 < values.length := List.length_pos_of_mem (List.mem_of_getLast? isLast)
        omega
    · exact ⟨values, rfl, whole, by omega⟩

/-! ### The scenes -/

theorem selectFrom_spec {limit : Int} (xs selected : List Int)
    (room : (selected.length : Int) < limit) :
    ((selectFrom limit selected xs).length : Int) ≤ limit ∧
      ∀ t ∈ selectFrom limit selected xs, t ∈ selected ∨ t ∈ xs := by
  induction xs generalizing selected with
  | nil => exact ⟨Int.le_of_lt room, fun t isIn => .inl isIn⟩
  | cons first rest ih =>
    have pushed : ∀ t ∈ selected ++ [first], t ∈ selected ∨ t ∈ first :: rest := by
      intro t isIn
      rcases List.mem_append.mp isIn with old | isNew
      · exact .inl old
      · exact .inr (List.mem_singleton.mp isNew ▸ List.mem_cons_self)
    rw [selectFrom]
    split
    · rename_i full
      rw [List.length_append, List.length_singleton]
      exact ⟨by omega, pushed⟩
    · rename_i open_
      obtain ⟨few, from_⟩ := ih (selected ++ [first]) (by omega)
      refine ⟨few, fun t isIn => ?_⟩
      rcases from_ t isIn with old | later
      · exact pushed t old
      · exact .inr (List.mem_cons_of_mem _ later)

theorem add_to_bucket_mem {t : Int} {buckets : List (Int × List Int)} {entry : Int × List Int}
    (isIn : entry ∈ addToBucket t buckets) {item : Int} (isItem : item ∈ entry.2) :
    item = t ∨ ∃ old ∈ buckets, item ∈ old.2 := by
  induction buckets with
  | nil =>
    rw [addToBucket, List.mem_singleton] at isIn
    subst isIn
    exact .inl (List.mem_singleton.mp isItem)
  | cons first rest ih =>
    obtain ⟨bucket, items⟩ := first
    rw [addToBucket] at isIn
    split at isIn
    · rcases List.mem_cons.mp isIn with rfl | later
      · dsimp only at isItem
        split at isItem
        · rcases List.mem_append.mp isItem with old | isNew
          · exact .inr ⟨(bucket, items), List.mem_cons_self, old⟩
          · exact .inl (List.mem_singleton.mp isNew)
        · exact .inr ⟨(bucket, items), List.mem_cons_self, isItem⟩
      · exact .inr ⟨entry, List.mem_cons_of_mem _ later, isItem⟩
    · rcases List.mem_cons.mp isIn with rfl | later
      · exact .inr ⟨_, List.mem_cons_self, isItem⟩
      · rcases ih later with same | ⟨old, isOld, wasItem⟩
        · exact .inl same
        · exact .inr ⟨old, List.mem_cons_of_mem _ isOld, wasItem⟩

theorem bucketed_mem (kept : List Int) (buckets : List (Int × List Int)) :
    ∀ entry ∈ kept.foldl (fun buckets t => addToBucket t buckets) buckets, ∀ item ∈ entry.2,
      item ∈ kept ∨ ∃ old ∈ buckets, item ∈ old.2 := by
  induction kept generalizing buckets with
  | nil => exact fun entry isIn item isItem => .inr ⟨entry, isIn, isItem⟩
  | cons t kept ih =>
    intro entry isIn item isItem
    rcases ih _ entry isIn item isItem with later | ⟨old, isOld, wasItem⟩
    · exact .inl (List.mem_cons_of_mem _ later)
    · rcases add_to_bucket_mem isOld wasItem with rfl | before
      · exact .inl List.mem_cons_self
      · exact .inr before

/-- The selected scene changes lie within the video and are no more than the limit. -/
theorem scenes_selected (scenes : List Int) {durationMs limit : Int} (lasts : 0 < durationMs)
    (positive : 0 ≤ limit) :
    ((selectSceneTimestampsMs scenes durationMs limit).length : Int) ≤ limit ∧
      ∀ t ∈ selectSceneTimestampsMs scenes durationMs limit, 0 ≤ t ∧ t < durationMs := by
  rw [selectSceneTimestampsMs]
  split
  · exact ⟨positive, nofun⟩
  · rename_i some
    dsimp only
    obtain ⟨few, from_⟩ := selectFrom_spec ((((sortedSet scenes).filter fun t =>
      ¬(t < 0 ∨ (durationMs > 0 ∧ t ≥ durationMs))).foldl (fun buckets t => addToBucket t buckets)
        []).mergeSort (fun a b => a.1 ≤ b.1) |>.flatMap Prod.snd) [] (by simpa using some)
    refine ⟨few, fun t isIn => ?_⟩
    obtain ⟨entry, isEntry, isItem⟩ := List.mem_flatMap.mp ((from_ t isIn).resolve_left nofun)
    rcases bucketed_mem _ _ entry (List.mem_mergeSort.mp isEntry) t isItem with kept | ⟨_, old, _⟩
    · have inside := (List.mem_filter.mp kept).2
      rw [decide_eq_true_eq] at inside
      omega
    · cases old

/-! ### The chosen frames -/

/-- What the timestamps of the chosen frames are to be. -/
structure Selection (timeline scenes : List Int) (durationMs maxKeyframes : Int)
    (chosen : List Int) : Prop where
  increasing : chosen.Pairwise (· < ·)
  inside : ∀ t ∈ chosen, 0 ≤ t ∧ t < durationMs
  few : (chosen.length : Int) ≤ maxKeyframes
  apart : chosen.Pairwise fun a b => frameDedupWindowMs < |a - b|
  timeline : ∀ t ∈ timeline, ∃ c ∈ chosen, |c - t| ≤ frameDedupWindowMs
  scenes : ∀ t ∈ scenes, ∃ c ∈ chosen, |c - t| ≤ frameDedupWindowMs

theorem Covered.near {selected : List Candidate} {frame : Candidate}
    (covered : Covered selected frame) : ∃ c ∈ selected.map Candidate.timestampMs,
      |c - frame.timestampMs| ≤ frameDedupWindowMs := by
  rcases covered with isIn | ⟨scene, isIn, -, isClose⟩
  · refine ⟨_, List.mem_map_of_mem isIn, ?_⟩
    rw [Int.sub_self]
    decide
  · exact ⟨_, List.mem_map_of_mem isIn, of_decide_eq_true isClose⟩

/-- **The frame candidates.** For every video that lasts, every list of scene changes and every
number of frames: the candidates increase, lie within the video, are no more than asked for, stand
more than the deduplication window apart, and leave no sample and no selected scene change farther
than that from one of them. -/
theorem frame_candidates (ceilQuotient : Int → Int → Int) (sceneTimestampsMs : List Int)
    {durationMs maxKeyframes : Int} (lasts : 0 < durationMs) (some : 1 ≤ maxKeyframes) :
    Selection (timelineSampleTimestampsMs ceilQuotient durationMs maxKeyframes)
      (selectSceneTimestampsMs sceneTimestampsMs durationMs
        (remaining ceilQuotient durationMs maxKeyframes))
      durationMs maxKeyframes
      ((buildFrameCandidates ceilQuotient durationMs sceneTimestampsMs maxKeyframes).map
        Candidate.timestampMs) := by
  obtain ⟨values, isTimeline, sampled, fewValues⟩ := timeline_sampled ceilQuotient lasts some
  have rest : remaining ceilQuotient durationMs maxKeyframes =
      max 0 (maxKeyframes - (sortedSet values).length) := by rw [remaining, isTimeline]
  have shorter := sortedSet_length values
  obtain ⟨fewScenes, scenesInside⟩ := scenes_selected sceneTimestampsMs lasts
    (show 0 ≤ remaining ceilQuotient durationMs maxKeyframes by rw [rest]; omega)
  rw [buildFrameCandidates, isTimeline]
  generalize selectSceneTimestampsMs sceneTimestampsMs durationMs
    (remaining ceilQuotient durationMs maxKeyframes) = scenes at fewScenes scenesInside ⊢
  have samples : SamplesApart ((sortedSet values).map (Candidate.mk · .timelineSample) ++
      scenes.map (Candidate.mk · .sceneChange)) := by
    have isSample : ∀ frame ∈ (sortedSet values).map (Candidate.mk · .timelineSample) ++
        scenes.map (Candidate.mk · .sceneChange), frame.frameSource ≠ .sceneChange →
          ∃ t ∈ values, frame = ⟨t, .timelineSample⟩ := by
      intro frame isIn other
      rcases List.mem_append.mp isIn with ofTimeline | ofScenes
      · obtain ⟨t, isTime, rfl⟩ := List.mem_map.mp ofTimeline
        exact ⟨t, mem_sortedSet.mp isTime, rfl⟩
      · obtain ⟨t, -, rfl⟩ := List.mem_map.mp ofScenes
        exact absurd rfl other
    intro a isA b isB sampleA sampleB isClose
    obtain ⟨t, isT, rfl⟩ := isSample a isA sampleA
    obtain ⟨u, isU, rfl⟩ := isSample b isB sampleB
    rw [sampled.gapped.eq_of_near isT isU (close_iff.mp isClose)]
  have few : ((((sortedSet values).map (Candidate.mk · .timelineSample) ++
      scenes.map (Candidate.mk · .sceneChange)).length : Nat) : Int) ≤ maxKeyframes := by
    rw [List.length_append, List.length_map, List.length_map]
    omega
  have merged := merged_candidates samples few
  have positive : (0 : Int) ≤ frameDedupWindowMs := by decide
  refine ⟨?_, ?_, ?_, ?_, ?_, ?_⟩
  · rw [List.pairwise_map]
    refine merged.apart.imp fun {a b} gap => ?_
    rw [Apart] at gap
    omega
  · intro t isIn
    obtain ⟨frame, isChosen, rfl⟩ := List.mem_map.mp isIn
    rcases List.mem_append.mp (merged.chosen frame isChosen) with ofTimeline | ofScenes
    · obtain ⟨u, isTime, rfl⟩ := List.mem_map.mp ofTimeline
      exact sampled.inside u (mem_sortedSet.mp isTime)
    · obtain ⟨u, isScene, rfl⟩ := List.mem_map.mp ofScenes
      exact scenesInside u isScene
  · rw [List.length_map]
    have fewer := merged.fewer
    omega
  · rw [List.pairwise_map]
    refine merged.apart.imp fun {a b} gap => ?_
    rw [Apart] at gap
    rw [lt_abs]
    omega
  · intro t isTime
    exact (merged.covered _ (List.mem_append_left _ (List.mem_map_of_mem isTime))).near
  · intro t isScene
    exact (merged.covered _ (List.mem_append_right _ (List.mem_map_of_mem isScene))).near

/-- A two-minute video with a scene change next to a sample. -/
theorem frame_candidates_short :
    0 < (120000 : Int) ∧ 1 ≤ (8 : Int) ∧
      Selection
        (timelineSampleTimestampsMs (fun a b => (a + b - 1) / b) 120000 8)
        (selectSceneTimestampsMs [31000, 33000, 75500] 120000
          (remaining (fun a b => (a + b - 1) / b) 120000 8))
        120000 8
        ((buildFrameCandidates (fun a b => (a + b - 1) / b) 120000 [31000, 33000, 75500] 8).map
          Candidate.timestampMs) :=
  ⟨by decide, by decide, frame_candidates _ _ (by decide) (by decide)⟩

end Psop.Skills.Frames
