import Mathlib.Data.Finset.Card
import Mathlib.Data.Finset.Range
import Mathlib.Data.Nat.Find
import Mathlib.Data.Nat.ModEq

/-!
# Linear probing

A table of a fixed number of slots keeps an entry in the first empty slot from its home on, round
the end of the table.  As long as a slot is empty, what a search from a home finds before the first
empty slot are the entries with that home in the order of their insertion, and others between them.
-/

namespace PiAdaptative.LinearProbing

variable {ε : Type}

/-- A slot some steps behind another, round the end of the table. -/
def slotAt (capacity home step : Nat) : Nat := (home + step) % capacity

/-- The first empty slot within some steps, by its distance. -/
def firstEmpty (capacity : Nat) (table : Nat → Option ε) (home : Nat) : Nat → Nat → Option Nat
  | 0, _ => none
  | fuel + 1, step =>
      if (table (slotAt capacity home step)).isNone then some step
      else firstEmpty capacity table home fuel (step + 1)

/-- The entries from a slot to the first empty one, within some steps. -/
def probed (capacity : Nat) (table : Nat → Option ε) (home : Nat) : Nat → Nat → List ε
  | 0, _ => []
  | fuel + 1, step =>
      match table (slotAt capacity home step) with
      | none => []
      | some entry => entry :: probed capacity table home fuel (step + 1)

/-- A table with an entry in a slot. -/
def place (table : Nat → Option ε) (slot : Nat) (entry : ε) : Nat → Option ε :=
  fun other => if other = slot then some entry else table other

/-- Every entry stands behind its home with no empty slot between. -/
def Closed (capacity : Nat) (home : ε → Nat) (table : Nat → Option ε) : Prop :=
  ∀ slot < capacity, ∀ entry, table slot = some entry →
    ∃ step < capacity, slot = slotAt capacity (home entry) step ∧
      ∀ earlier < step, table (slotAt capacity (home entry) earlier) ≠ none

/-- The number of slots in use. -/
def used (capacity : Nat) (table : Nat → Option ε) : Nat :=
  ((Finset.range capacity).filter fun slot => (table slot).isSome).card

variable {capacity : Nat}

theorem slotAt_lt (positive : 0 < capacity) (home step : Nat) :
    slotAt capacity home step < capacity :=
  Nat.mod_lt _ positive

theorem slotAt_inj {home first second : Nat} (inFirst : first < capacity)
    (inSecond : second < capacity)
    (same : slotAt capacity home first = slotAt capacity home second) : first = second := by
  have congruent : first ≡ second [MOD capacity] := Nat.ModEq.add_left_cancel' home same
  rwa [Nat.ModEq, Nat.mod_eq_of_lt inFirst, Nat.mod_eq_of_lt inSecond] at congruent

variable {slot : Nat}

theorem exists_step (home : Nat) (inTable : slot < capacity) :
    ∃ step < capacity, slotAt capacity home step = slot := by
  have positive : 0 < capacity := Nat.zero_lt_of_lt inTable
  refine ⟨(slot + (capacity - home % capacity)) % capacity, Nat.mod_lt _ positive, ?_⟩
  have below := Nat.mod_lt home positive
  calc (home + (slot + (capacity - home % capacity)) % capacity) % capacity
      = (home % capacity + (slot + (capacity - home % capacity))) % capacity := by
        rw [Nat.add_mod_mod, Nat.mod_add_mod]
    _ = (slot + capacity) % capacity := by
        congr 1
        omega
    _ = slot := by rw [Nat.add_mod_right, Nat.mod_eq_of_lt inTable]

variable {table : Nat → Option ε}

theorem firstEmpty_eq_some {home fuel start step : Nat} :
    firstEmpty capacity table home fuel start = some step ↔
      start ≤ step ∧ step < start + fuel ∧ table (slotAt capacity home step) = none ∧
        ∀ earlier, start ≤ earlier → earlier < step →
          table (slotAt capacity home earlier) ≠ none := by
  induction fuel generalizing start with
  | zero =>
      simp only [firstEmpty, reduceCtorEq, Nat.add_zero, false_iff]
      omega
  | succ fuel ih =>
      unfold firstEmpty
      by_cases empty : table (slotAt capacity home start) = none
      · rw [if_pos (by rw [empty]; rfl)]
        constructor
        · rintro ⟨⟩
          exact ⟨Nat.le_refl _, by omega, empty, fun _ _ _ => by omega⟩
        · rintro ⟨least, -, -, full⟩
          by_contra other
          exact full start (Nat.le_refl _) (by
            rcases Nat.lt_or_eq_of_le least with less | same
            · exact less
            · exact absurd (congrArg some same) other) empty
      · rw [if_neg (by simpa using empty), ih]
        constructor
        · rintro ⟨least, bound, free, full⟩
          refine ⟨by omega, by omega, free, fun earlier above below => ?_⟩
          rcases Nat.lt_or_eq_of_le above with less | rfl
          · exact full earlier less below
          · exact empty
        · rintro ⟨least, bound, free, full⟩
          have other : start ≠ step := fun same => empty (same ▸ free)
          exact ⟨by omega, by omega, free, fun earlier above below =>
            full earlier (by omega) below⟩

/-- A search meets an empty slot of the table. -/
theorem exists_firstEmpty (home : Nat) (inTable : slot < capacity) (empty : table slot = none) :
    ∃ step < capacity, firstEmpty capacity table home capacity 0 = some step := by
  obtain ⟨step, bound, rfl⟩ := exists_step home inTable
  have least : ∃ least, least < capacity ∧ table (slotAt capacity home least) = none ∧
      ∀ earlier < least, table (slotAt capacity home earlier) ≠ none := by
    classical
    have some : ∃ step, table (slotAt capacity home step) = none := ⟨step, empty⟩
    exact ⟨Nat.find some, Nat.lt_of_le_of_lt (Nat.find_min' some empty) bound, Nat.find_spec some,
      fun earlier below => Nat.find_min some below⟩
  obtain ⟨least, inside, free, full⟩ := least
  exact ⟨least, inside, firstEmpty_eq_some.mpr
    ⟨Nat.zero_le _, by omega, free, fun earlier _ below => full earlier below⟩⟩

theorem exists_empty (room : used capacity table < capacity) :
    ∃ slot < capacity, table slot = none := by
  by_contra full
  have all : ∀ slot ∈ Finset.range capacity, (table slot).isSome = true := by
    intro slot member
    by_contra free
    exact full ⟨slot, Finset.mem_range.mp member, by simpa using free⟩
  unfold used at room
  rw [Finset.filter_true_of_mem all, Finset.card_range] at room
  exact Nat.lt_irrefl _ room

variable {home fuel start : Nat}

theorem probed_congr {table other : Nat → Option ε}
    (same : ∀ step, start ≤ step → step < start + fuel →
      table (slotAt capacity home step) = other (slotAt capacity home step)) :
    probed capacity table home fuel start = probed capacity other home fuel start := by
  induction fuel generalizing start with
  | zero => rfl
  | succ fuel ih =>
      unfold probed
      rw [same start (Nat.le_refl _) (by omega),
        ih fun step above below => same step (by omega) (by omega)]

/-- A search goes on behind the slots in use at its beginning. -/
theorem probed_append {home fuel start step : Nat} (above : start ≤ step)
    (below : step ≤ start + fuel)
    (full : ∀ earlier, start ≤ earlier → earlier < step →
      table (slotAt capacity home earlier) ≠ none) :
    probed capacity table home fuel start =
      probed capacity table home (step - start) start ++
        probed capacity table home (start + fuel - step) step := by
  induction fuel generalizing start with
  | zero =>
      obtain rfl : step = start := by omega
      rw [Nat.sub_self, Nat.add_zero, Nat.sub_self]
      rfl
  | succ fuel ih =>
      rcases Nat.lt_or_eq_of_le above with less | rfl
      · cases found : table (slotAt capacity home start) with
        | none => exact absurd found (full start (Nat.le_refl _) less)
        | some entry =>
            have later := ih less (by omega) fun earlier above below =>
              full earlier (Nat.le_of_succ_le above) below
            rw [show step - start = (step - (start + 1)) + 1 by omega, probed, probed, found]
            rw [later, List.cons_append, show start + 1 + fuel = start + (fuel + 1) by omega]
      · rw [Nat.sub_self, Nat.add_sub_cancel_left]
        rfl

/-- A search ends at an empty slot. -/
theorem probed_eq_nil (free : table (slotAt capacity home start) = none) :
    probed capacity table home fuel start = [] := by
  cases fuel with
  | zero => rfl
  | succ fuel =>
      unfold probed
      rw [free]

variable {entry : ε}

theorem mem_probed (member : entry ∈ probed capacity table home fuel start) :
    ∃ step, start ≤ step ∧ step < start + fuel ∧
      table (slotAt capacity home step) = some entry := by
  induction fuel generalizing start with
  | zero => cases member
  | succ fuel ih =>
      unfold probed at member
      cases found : table (slotAt capacity home start) with
      | none =>
          rw [found] at member
          cases member
      | some first =>
          rw [found] at member
          rcases List.mem_cons.mp member with rfl | later
          · exact ⟨start, Nat.le_refl _, by omega, found⟩
          · obtain ⟨step, above, below, there⟩ := ih later
            exact ⟨step, by omega, by omega, there⟩

theorem place_slot (table : Nat → Option ε) (slot : Nat) (entry : ε) :
    place table slot entry slot = some entry := by
  unfold place
  rw [if_pos rfl]

theorem place_other (table : Nat → Option ε) {slot other : Nat} (entry : ε) (different : other ≠ slot) :
    place table slot entry other = table other := by
  unfold place
  rw [if_neg different]

theorem used_place (inTable : slot < capacity) (empty : table slot = none) :
    used capacity (place table slot entry) = used capacity table + 1 := by
  unfold used
  have filled : (Finset.range capacity).filter (fun other => (place table slot entry other).isSome) =
      insert slot ((Finset.range capacity).filter fun other => (table other).isSome) := by
    ext other
    by_cases same : other = slot
    · subst same
      simp [place_slot, inTable]
    · simp [place_other table entry same, same]
  rw [filled, Finset.card_insert_of_notMem (by simp [empty])]

variable {home : ε → Nat}

/-- An entry put in the first empty slot from its home stands behind slots in use. -/
theorem closed_place {step : Nat} (closed : Closed capacity home table)
    (found : firstEmpty capacity table (home entry) capacity 0 = some step) :
    Closed capacity home (place table (slotAt capacity (home entry) step) entry) := by
  obtain ⟨-, bound, empty, full⟩ := firstEmpty_eq_some.mp found
  have stillFull : ∀ other, table other ≠ none →
      place table (slotAt capacity (home entry) step) entry other ≠ none := by
    intro other filled
    unfold place
    split
    · exact Option.some_ne_none entry
    · exact filled
  intro slot inTable other there
  by_cases same : slot = slotAt capacity (home entry) step
  · rw [same, place_slot] at there
    obtain rfl := Option.some.inj there
    exact ⟨step, by omega, same, fun earlier below =>
      stillFull _ (full earlier (Nat.zero_le _) below)⟩
  · rw [place_other table entry same] at there
    obtain ⟨distance, inside, atSlot, behind⟩ := closed slot inTable other there
    exact ⟨distance, inside, atSlot, fun earlier below => stillFull _ (behind earlier below)⟩

/-- An insertion adds its entry behind those found before, among the entries with one home. -/
theorem filter_probed_place {step home' : Nat}
    (closed : Closed capacity home table)
    (found : firstEmpty capacity table (home entry) capacity 0 = some step) (keep : ε → Bool)
    (sameHome : ∀ entry, keep entry = true → home entry = home') :
    (probed capacity (place table (slotAt capacity (home entry) step) entry) home' capacity 0).filter
        keep =
      (probed capacity table home' capacity 0).filter keep ++
        if keep entry then [entry] else [] := by
  obtain ⟨-, bound, empty, full⟩ := firstEmpty_eq_some.mp found
  have positive : 0 < capacity := by omega
  have inTable := slotAt_lt positive (home entry) step
  obtain ⟨distance, inside, atSlot⟩ := exists_step home' inTable
  obtain ⟨first, firstInside, firstFound⟩ := exists_firstEmpty home' inTable empty
  obtain ⟨-, -, free, filled⟩ := firstEmpty_eq_some.mp firstFound
  have ordered : first ≤ distance := by
    by_contra later
    exact filled distance (Nat.zero_le _) (by omega) (atSlot ▸ empty)
  have before : probed capacity table home' capacity 0 = probed capacity table home' first 0 := by
    rw [probed_append (Nat.zero_le first) (by omega) filled, probed_eq_nil free, List.append_nil,
      Nat.sub_zero]
  have elsewhere : ∀ other < capacity, other ≠ distance →
      place table (slotAt capacity (home entry) step) entry (slotAt capacity home' other) =
        table (slotAt capacity home' other) := by
    intro other otherInside different
    exact place_other table entry fun same =>
      different (slotAt_inj otherInside inside (same.trans atSlot.symm))
  have kept : probed capacity (place table (slotAt capacity (home entry) step) entry) home' first 0 =
      probed capacity table home' first 0 :=
    probed_congr fun other _ below => elsewhere other (by omega) (by omega)
  have stillFilled : ∀ earlier, 0 ≤ earlier → earlier < first →
      place table (slotAt capacity (home entry) step) entry (slotAt capacity home' earlier) ≠
        none := by
    intro earlier above below
    rw [elsewhere earlier (by omega) (by omega)]
    exact filled earlier above below
  rw [probed_append (Nat.zero_le first) (by omega) stillFilled, Nat.sub_zero, kept, before,
    Nat.zero_add, List.filter_append]
  rcases Nat.lt_or_eq_of_le ordered with short | rfl
  · have ends : place table (slotAt capacity (home entry) step) entry (slotAt capacity home' first) =
        none := by
      rw [elsewhere first firstInside (by omega)]
      exact free
    have dropped : keep entry = false := by
      by_contra kept
      rw [Bool.not_eq_false] at kept
      rw [sameHome entry kept, firstFound] at found
      rw [sameHome entry kept] at atSlot
      obtain rfl := Option.some.inj found
      exact absurd (slotAt_inj inside firstInside atSlot) (by omega)
    rw [probed_eq_nil ends, dropped]
    rfl
  · obtain ⟨rest, size⟩ := Nat.exists_eq_add_of_lt inside
    have others : (probed capacity (place table (slotAt capacity (home entry) step) entry) home' rest
        (first + 1)).filter keep = [] := by
      rw [List.filter_eq_nil_iff]
      intro other member kept
      obtain ⟨far, above, below, there⟩ := mem_probed member
      rw [elsewhere far (by omega) (by omega)] at there
      obtain ⟨own, ownInside, atOwn, behind⟩ :=
        closed _ (slotAt_lt positive home' far) other there
      rw [sameHome other kept] at atOwn behind
      obtain rfl := slotAt_inj (by omega) ownInside atOwn
      exact behind first (by omega) free
    rw [show capacity - first = rest + 1 by omega, probed, atSlot, place_slot]
    rw [List.filter_cons, others]

end PiAdaptative.LinearProbing
