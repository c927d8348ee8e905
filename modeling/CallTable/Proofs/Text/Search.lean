import CallTable.Text.Scan

/-!
# Where a search finds something

`Form.all` tells what a search finds in a text, and the places of `Form.Places` tell also where:
they follow one another without overlap, and the form is read at each of them and nowhere in front
of, between or behind them. A search has such places (`Form.exists_places`), and only one list of
them (`Form.Places.unique`).
-/

namespace CallTable.Text

/-- A stretch of a text, from one position up to another, and what is read there. -/
@[ext]
structure Place (α : Type) where
  start : Nat
  stop : Nat
  found : α

variable {α : Type} {form : Form α} {text : List Char}

/-- The places where the search finds something in the text, from the origin on. -/
structure Form.Places (form : Form α) (text : List Char) (origin : Nat)
    (places : List (Place α)) : Prop where
  origin_le : ∀ place ∈ places, origin ≤ place.start
  stop_le : ∀ place ∈ places, place.stop ≤ text.length
  ordered : places.Pairwise fun first second => first.stop ≤ second.start
  read : ∀ place ∈ places,
    form.read? (text.drop place.start) = some (place.found, text.drop place.stop)
  passed : ∀ i, origin ≤ i → (∀ place ∈ places, i < place.start ∨ place.stop ≤ i) →
    form.read? (text.drop i) = none

/-- Nothing is read of the empty text. -/
theorem Form.read?_nil (form : Form α) : form.read? [] = none := by
  cases hread : form.read? [] with
  | none => rfl
  | some found => exact absurd (form.length_lt hread) (Nat.not_lt_zero _)

namespace Form.Places

variable {origin : Nat} {place : Place α} {places : List (Place α)}

/-- A place is not empty. -/
theorem start_lt_stop (h : form.Places text origin places) (hplace : place ∈ places) :
    place.start < place.stop := by
  have hstop := h.stop_le place hplace
  have hless := form.length_lt (h.read place hplace)
  rw [List.length_drop, List.length_drop] at hless
  omega

/-- Behind the text nothing is found. -/
theorem nil (h : text.length ≤ origin) : form.Places text origin [] where
  origin_le := List.forall_mem_nil _
  stop_le := List.forall_mem_nil _
  ordered := .nil
  read := List.forall_mem_nil _
  passed := fun i hi _ => by rw [List.drop_eq_nil_of_le (Nat.le_trans h hi), form.read?_nil]

/-- Where nothing is read, the search goes on one character further. -/
theorem skip (hread : form.read? (text.drop origin) = none)
    (h : form.Places text (origin + 1) places) : form.Places text origin places where
  origin_le := fun place hplace => Nat.le_of_succ_le (h.origin_le place hplace)
  stop_le := h.stop_le
  ordered := h.ordered
  read := h.read
  passed := fun i hi hout => by
    rcases Nat.eq_or_lt_of_le hi with rfl | hlater
    · exact hread
    · exact h.passed i hlater hout

/-- Where something is read, the search goes on behind it. -/
theorem cons {stop : Nat} {found : α} (hstop : stop ≤ text.length)
    (hread : form.read? (text.drop origin) = some (found, text.drop stop))
    (h : form.Places text stop places) :
    form.Places text origin (⟨origin, stop, found⟩ :: places) := by
  have hless := form.length_lt hread
  rw [List.length_drop, List.length_drop] at hless
  refine ⟨List.forall_mem_cons.2 ⟨Nat.le_refl _, fun place hplace => ?_⟩,
    List.forall_mem_cons.2 ⟨hstop, h.stop_le⟩, List.pairwise_cons.2 ⟨h.origin_le, h.ordered⟩,
    List.forall_mem_cons.2 ⟨hread, h.read⟩, fun i hi hout => ?_⟩
  · have hlater := h.origin_le place hplace
    omega
  · obtain ⟨hhere, hout⟩ := List.forall_mem_cons.1 hout
    exact h.passed i (hhere.resolve_left (Nat.not_lt.2 hi)) hout

/-- Behind the first place stand the other ones. -/
theorem tail (h : form.Places text origin (place :: places)) :
    form.Places text place.stop places where
  origin_le := (List.pairwise_cons.1 h.ordered).1
  stop_le := (List.forall_mem_cons.1 h.stop_le).2
  ordered := (List.pairwise_cons.1 h.ordered).2
  read := (List.forall_mem_cons.1 h.read).2
  passed := fun i hi hout => by
    have hstart := h.origin_le place List.mem_cons_self
    have hless := h.start_lt_stop List.mem_cons_self
    exact h.passed i (by omega) (List.forall_mem_cons.2 ⟨Or.inr hi, hout⟩)

/-- In front of the first place nothing is read. -/
theorem read?_eq_none (h : form.Places text origin (place :: places)) {i : Nat} (hi : origin ≤ i)
    (hlt : i < place.start) : form.read? (text.drop i) = none := by
  refine h.passed i hi (List.forall_mem_cons.2 ⟨Or.inl hlt, fun later hlater => Or.inl ?_⟩)
  have hless := h.start_lt_stop List.mem_cons_self
  have hordered := (List.pairwise_cons.1 h.ordered).1 later hlater
  omega

/-- What one search finds first, another one does not find later. -/
theorem start_le {other : Place α} {others : List (Place α)}
    (h : form.Places text origin (place :: places))
    (hother : form.Places text origin (other :: others)) : other.start ≤ place.start := by
  refine Nat.le_of_not_lt fun hlt => ?_
  have hnone := hother.read?_eq_none (h.origin_le place List.mem_cons_self) hlt
  rw [h.read place List.mem_cons_self] at hnone
  cases hnone

/-- Where a search finds something, another one does too. -/
theorem ne_nil (h : form.Places text origin (place :: places)) :
    ¬ form.Places text origin [] := by
  intro hnil
  have hnone := hnil.passed place.start (h.origin_le place List.mem_cons_self)
    (List.forall_mem_nil _)
  rw [h.read place List.mem_cons_self] at hnone
  cases hnone

/-- Two searches find the same first place. -/
theorem head_eq {other : Place α} {others : List (Place α)}
    (h : form.Places text origin (place :: places))
    (hother : form.Places text origin (other :: others)) : other = place := by
  have hstart : other.start = place.start := Nat.le_antisymm (h.start_le hother) (hother.start_le h)
  have hread := hother.read other List.mem_cons_self
  rw [hstart, h.read place List.mem_cons_self] at hread
  obtain ⟨hfound, hrest⟩ := Prod.mk.inj (Option.some.inj hread)
  have hstop : other.stop = place.stop := by
    have hlength := congrArg List.length hrest
    rw [List.length_drop, List.length_drop] at hlength
    have hplace := h.stop_le place List.mem_cons_self
    have hother := hother.stop_le other List.mem_cons_self
    omega
  exact Place.ext hstart hstop hfound.symm

/-- A text has only one list of places. -/
theorem unique {others : List (Place α)} (h : form.Places text origin places)
    (hothers : form.Places text origin others) : others = places := by
  induction places generalizing origin others with
  | nil =>
      cases others with
      | nil => rfl
      | cons other others => exact absurd h hothers.ne_nil
  | cons place places ih =>
      cases others with
      | nil => exact absurd hothers h.ne_nil
      | cons other others =>
          obtain rfl := h.head_eq hothers
          rw [ih h.tail hothers.tail]

end Form.Places

/-- A search finds everything at its place, if what a reading leaves is the end of its text. -/
theorem Form.exists_places (form : Form α)
    (hsuffix : ∀ {text rest : List Char} {found : α}, form.read? text = some (found, rest) →
      rest <:+ text) (whole : List Char) :
    ∃ places, form.Places whole 0 places ∧ form.all whole = places.map Place.found := by
  -- The induction runs over the ends of the text, each of which begins at some position.
  refine form.all_induction (motive := fun text all => ∀ origin, text = whole.drop origin →
    ∃ places, form.Places whole origin places ∧ all = places.map Place.found) ?_ ?_ ?_ whole 0 rfl
  · intro origin hdrop
    exact ⟨[], .nil (List.drop_eq_nil_iff.1 hdrop.symm), rfl⟩
  · intro text rest found hread ih origin hdrop
    have hrest : rest = whole.drop (whole.length - rest.length) := by
      refine List.suffix_iff_eq_drop.1 ((hsuffix hread).trans ?_)
      rw [hdrop]
      exact List.drop_suffix origin whole
    obtain ⟨places, hplaces, hall⟩ := ih _ hrest
    rw [hdrop, hrest] at hread
    exact ⟨_, .cons (Nat.sub_le _ _) hread hplaces, by rw [hall, List.map_cons]⟩
  · intro c text hread ih origin hdrop
    have htext : text = whole.drop (origin + 1) := by
      rw [← List.tail_drop, ← hdrop, List.tail_cons]
    obtain ⟨places, hplaces, hall⟩ := ih _ htext
    rw [hdrop] at hread
    exact ⟨places, .skip hread hplaces, hall⟩

end CallTable.Text
