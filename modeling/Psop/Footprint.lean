import Psop.Json

/-!
Footprints: along which paths an object was changed.

`Writes paths before after` says that every read along a path apart from all of `paths` gives the
same value before and after. Each write of `Json` has its own path as its footprint, a chain of
`setdefault(key, {})` none but what is written through it (`Writes.fill`), and footprints of
successive writes add up. What a procedure leaves alone is then read off the list of paths it writes.
-/
namespace Psop.Json

theorem Apart.append {p q : List String} (h : Apart p q) (r : List String) : Apart p (q ++ r) := by
  induction p generalizing q with
  | nil => exact absurd h (by simp [Apart, apart])
  | cons k ks ih =>
    cases q with
    | nil => exact absurd h (by simp [Apart, apart])
    | cons l ls =>
      rcases h.cons with differ | rest
      · exact apart_of_head differ ks (ls ++ r)
      · have more : apart ks (ls ++ r) = true := ih rest
        simp [Apart, apart, more]

theorem Apart.shorten {p q r : List String} (h : Apart p q) : Apart (p ++ r) q :=
  (h.symm.append r).symm

def Writes (paths : List (List String)) (before after : Json) : Prop :=
  ∀ p, (∀ q ∈ paths, Apart q p) → at? p after = at? p before

namespace Writes

variable {ps qs : List (List String)} {a b c : Json}

theorem refl (ps : List (List String)) (j : Json) : Writes ps j j := fun _ _ => rfl

theorem trans (first : Writes ps a b) (second : Writes qs b c) : Writes (ps ++ qs) a c := by
  intro p free
  rw [second p fun q isQ => free q (List.mem_append_right _ isQ),
    first p fun q isQ => free q (List.mem_append_left _ isQ)]

theorem mono (sub : ps ⊆ qs) (writes : Writes ps a b) : Writes qs a b :=
  fun p free => writes p fun q isQ => free q (sub isQ)

/-- Both changes within one footprint. -/
theorem step (first : Writes ps a b) (second : Writes ps b c) : Writes ps a c :=
  (first.trans second).mono fun _ isQ => (List.mem_append.mp isQ).elim id id

/-- A write below a path is a write along it. -/
theorem above {p r : List String} (writes : Writes [p ++ r] a b) : Writes [p] a b :=
  fun q free => writes q fun s isS => by
    obtain rfl := List.mem_singleton.mp isS
    exact (free p (List.mem_singleton_self p)).shorten

/-- A write below one of the paths. -/
theorem under {path : List String} (writes : Writes [path] a b)
    (below : ps.any (fun top => top.isPrefixOf path) = true) : Writes ps a b := by
  obtain ⟨top, isTop, leads⟩ := List.any_eq_true.mp below
  obtain ⟨rest, rfl⟩ := List.isPrefixOf_iff_prefix.mp leads
  exact writes.above.mono (List.cons_subset.mpr ⟨isTop, List.nil_subset _⟩)

theorem alter {path : List String} {update : Option Json → Option Json}
    (altered : alter? path update (some a) = some b) : Writes [path] a b :=
  fun _ free => at?_alter?_apart (free path (List.mem_singleton_self _)) altered

theorem put {path : List String} {value : Json} (written : a.put? path value = some b) :
    Writes [path] a b := alter written

theorem push {path : List String} {value : Json} (pushed : a.push? path value = some b) :
    Writes [path] a b := alter pushed

theorem setDefault {path : List String} {value : Json}
    (written : a.setDefault? path value = some b) : Writes [path] a b := alter written

theorem setParts (path : List String) (value j : Json) : Writes [path] j (setParts path value j) :=
  fun _ free => at?_setParts_apart (free path (List.mem_singleton_self _)) value j

/-- An absent object filled in as an empty one is seen by no read through it. -/
theorem fill {key : String} (inner : String) (filled : a.setDefault? [key] (obj []) = some b) :
    Writes [[key, inner]] a b := by
  intro p free
  have apart : Apart [key, inner] p := free _ (List.mem_singleton_self _)
  cases p with
  | nil => exact absurd apart (by simp [Apart, Json.apart])
  | cons l ls =>
    rcases apart.cons with differ | rest
    · exact at?_setDefault?_apart (apart_of_head differ [] ls) filled
    · by_cases same : key = l
      · subst same
        have read := at?_setDefault?_same filled
        have split : ∀ j, at? (key :: ls) j = (at? [key] j).bind (at? ls) := fun j =>
          at?_append [key] ls j
        rw [split, split, read]
        cases at? [key] a with
        | some value => rfl
        | none =>
          cases ls with
          | nil => exact absurd rest (by simp [Apart, Json.apart])
          | cons m ms => simp [at?_cons]
      · exact at?_setDefault?_apart (apart_of_head same [] ls) filled

/-- A read apart from the footprint. -/
theorem read (writes : Writes ps a b) {p : List String} (free : ∀ q ∈ ps, Apart q p) :
    at? p b = at? p a := writes p free

end Writes

/-- What `pop` finds below its key, and what it leaves. -/
theorem pop?_spec {key inner : String} {a b : Json} (popped : a.pop? key inner = some b) :
    ∃ fs, (∀ l ls, at? (key :: l :: ls) a = (lookup l fs).bind (at? ls)) ∧
      ∀ l ls, at? (key :: l :: ls) b = (lookup l (popKey inner fs)).bind (at? ls) := by
  obtain ⟨value, pop, after⟩ := at?_alter?_same popped
  have through : ∀ j l ls, at? (key :: l :: ls) j = (at? [key] j).bind (at? (l :: ls)) :=
    fun j l ls => at?_append [key] (l :: ls) j
  split at pop
  · rename_i fs found
    obtain rfl := Option.some.inj pop
    refine ⟨fs, fun l ls => ?_, fun l ls => ?_⟩
    · rw [through]
      cases had : at? [key] a with
      | none =>
        rw [had] at found
        obtain rfl : [] = fs := by simpa using found
        rfl
      | some old =>
        rw [had] at found
        obtain rfl : old = obj fs := found
        rfl
    · rw [through, after]
      rfl
  · cases pop

theorem at?_pop?_same {key inner : String} {a b : Json} (popped : a.pop? key inner = some b)
    (rest : List String) : at? (key :: inner :: rest) b = none := by
  obtain ⟨fs, -, after⟩ := pop?_spec popped
  rw [after, lookup_popKey_same, Option.bind_none]

theorem Writes.pop {key inner : String} {a b : Json} (popped : a.pop? key inner = some b) :
    Writes [[key, inner]] a b := by
  intro p free
  have apart : Apart [key, inner] p := free _ (List.mem_singleton_self _)
  cases p with
  | nil => exact absurd apart (by simp [Apart, Json.apart])
  | cons l ls =>
    by_cases same : key = l
    · subst same
      have rest := apart.cons.resolve_left fun differ => differ rfl
      cases ls with
      | nil => exact absurd rest (by simp [Apart, Json.apart])
      | cons m ms =>
        have differ : inner ≠ m := rest.cons.resolve_right fun below => by
          simp [Apart, Json.apart] at below
        obtain ⟨fs, before, after⟩ := pop?_spec popped
        rw [before, after, lookup_popKey_other differ]
    · exact at?_alter?_apart (apart_of_head same [] ls) popped

/-- Above the end of its path an update leaves an object. -/
theorem alter?_through {p r : List String} {key : String} {update : Option Json → Option Json}
    {j j' : Json} (altered : alter? (p ++ key :: r) update (some j) = some j') :
    ∃ fs, at? p j' = some (obj fs) := by
  suffices general : ∀ current, alter? (p ++ key :: r) update current = some j' →
      ∃ fs, at? p j' = some (obj fs) from general _ altered
  clear altered
  induction p generalizing j' with
  | nil =>
    intro current altered
    simp only [List.nil_append, alter?] at altered
    split at altered
    · obtain ⟨value, -, rfl⟩ := Option.map_eq_some_iff.mp altered
      exact ⟨_, rfl⟩
    · cases altered
  | cons k ks ih =>
    intro current altered
    simp only [List.cons_append, alter?] at altered
    split at altered
    · obtain ⟨value, inner, rfl⟩ := Option.map_eq_some_iff.mp altered
      obtain ⟨fs, found⟩ := ih _ inner
      exact ⟨fs, by simp [at?_cons, found]⟩
    · cases altered

/-- An update is defined where it is on the value that can be read. -/
theorem alter?_defined {path : List String} {update : Option Json → Option Json} {j old new : Json}
    (reads : at? path j = some old) (updates : update (some old) = some new) :
    ∃ j', alter? path update (some j) = some j' := by
  induction path generalizing j with
  | nil =>
    obtain rfl : j = old := Option.some.inj reads
    exact ⟨new, updates⟩
  | cons key path ih =>
    obtain ⟨inner, found, below⟩ := Option.bind_eq_some_iff.mp reads
    cases j with
    | obj fs =>
      obtain ⟨inner', written⟩ := ih below
      refine ⟨obj (setKey key inner' fs), ?_⟩
      simp only [field?_obj] at found
      simp [alter?, found, written]
    | _ => simp [field?, fields] at found

/-- What can be read can be overwritten. -/
theorem put?_defined {path : List String} {j old : Json} (reads : at? path j = some old)
    (value : Json) : ∃ j', j.put? path value = some j' := alter?_defined reads rfl

/-- In an object that can be read, an update that is defined everywhere is. -/
theorem alter?_within {path : List String} {key : String} {update : Option Json → Option Json}
    (total : ∀ current, ∃ value, update current = some value) {j : Json} {fs : Fields}
    (reads : at? path j = some (obj fs)) : ∃ j', alter? (path ++ [key]) update (some j) = some j' := by
  induction path generalizing j with
  | nil =>
    obtain rfl : j = obj fs := by simpa using reads
    obtain ⟨value, defined⟩ := total (lookup key fs)
    exact ⟨obj (setKey key value fs), by simp [alter?, defined]⟩
  | cons k ks ih =>
    obtain ⟨inner, has, below⟩ := Option.bind_eq_some_iff.mp reads
    cases j with
    | obj gs =>
      obtain ⟨inner', written⟩ := ih below
      simp only [field?_obj] at has
      exact ⟨obj (setKey k inner' gs), by simp [alter?, has, written]⟩
    | _ => simp [field?, fields] at has

theorem put?_within {path : List String} {j : Json} {fs : Fields} (reads : at? path j = some (obj fs))
    (key : String) (value : Json) : ∃ j', j.put? (path ++ [key]) value = some j' :=
  alter?_within (fun _ => ⟨value, rfl⟩) reads

end Psop.Json
