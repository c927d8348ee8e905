import CallTable.MemberMap
import Mathlib.Data.List.Nodup

/-!
# The last entry for a pointer type

Entries are written one after the other, so a table answers for a pointer type with the member of
the last entry that names it, and with what it answered before where no entry does. Every fact about
written entries follows from this equation, `getElem?_foldl_write_eq`.
-/

namespace CallTable

namespace Entry

/-- The member of the last entry that names a pointer type. -/
def lastMember? (entries : List Entry) (pointerType : String) : Option String :=
  (entries.filter (·.pointerType = pointerType)).getLast?.map (·.member)

theorem lastMember?_nil (pointerType : String) : lastMember? [] pointerType = none :=
  rfl

theorem lastMember?_singleton (entry : Entry) (pointerType : String) :
    lastMember? [entry] pointerType =
      if entry.pointerType = pointerType then some entry.member else none := by
  unfold lastMember?
  split
  · next h => simp [h]
  · next h => simp [h]

/-- Of entries behind other entries, the last one counts that names the pointer type. -/
theorem lastMember?_append (first second : List Entry) (pointerType : String) :
    lastMember? (first ++ second) pointerType =
      (lastMember? second pointerType).or (lastMember? first pointerType) := by
  rw [lastMember?, List.filter_append, List.getLast?_append, Option.map_or, lastMember?,
    lastMember?]

/-- There is a last entry exactly if some entry names the pointer type. -/
theorem lastMember?_eq_none_iff {entries : List Entry} {pointerType : String} :
    lastMember? entries pointerType = none ↔
      ∀ entry ∈ entries, entry.pointerType ≠ pointerType := by
  simp [lastMember?]

theorem isSome_lastMember?_iff {entries : List Entry} {pointerType : String} :
    (lastMember? entries pointerType).isSome = true ↔
      pointerType ∈ entries.map (·.pointerType) := by
  rw [← Option.ne_none_iff_isSome, ne_eq, lastMember?_eq_none_iff]
  simp

/-- The last entry is one of the entries. -/
theorem mem_of_lastMember? {entries : List Entry} {pointerType member : String}
    (h : lastMember? entries pointerType = some member) : ⟨pointerType, member⟩ ∈ entries := by
  obtain ⟨entry, hlast, rfl⟩ := Option.map_eq_some_iff.1 h
  obtain ⟨hentry, hkey⟩ := List.mem_filter.1 (List.mem_of_getLast? hlast)
  obtain rfl := of_decide_eq_true hkey
  exact hentry

/-- If the pointer types are distinct, every entry is the last one for its own. -/
theorem lastMember?_eq_some_iff {entries : List Entry}
    (hdistinct : (entries.map (·.pointerType)).Nodup) {pointerType member : String} :
    lastMember? entries pointerType = some member ↔ ⟨pointerType, member⟩ ∈ entries := by
  refine ⟨mem_of_lastMember?, fun hentry => ?_⟩
  cases hlast : lastMember? entries pointerType with
  | none => exact absurd rfl (lastMember?_eq_none_iff.1 hlast _ hentry)
  | some other =>
      have hsame : Entry.mk pointerType other = ⟨pointerType, member⟩ :=
        List.inj_on_of_nodup_map hdistinct (mem_of_lastMember? hlast) hentry rfl
      rw [(Entry.mk.inj hsame).2]

/-- The order of entries with distinct pointer types does not matter. -/
theorem lastMember?_eq_of_perm {entries others : List Entry} (hperm : others.Perm entries)
    (hdistinct : (entries.map (·.pointerType)).Nodup) (pointerType : String) :
    lastMember? others pointerType = lastMember? entries pointerType := by
  refine Option.ext fun member => ?_
  rw [lastMember?_eq_some_iff hdistinct,
    lastMember?_eq_some_iff ((hperm.map _).nodup_iff.2 hdistinct), hperm.mem_iff]

end Entry

namespace MemberMap

/-- After entries are written, a table answers with the last one that names the pointer type, and as
before if none does. -/
theorem getElem?_foldl_write_eq (entries : List Entry) (map : MemberMap) (pointerType : String) :
    (entries.foldl write map)[pointerType]? =
      (Entry.lastMember? entries pointerType).or map[pointerType]? := by
  induction entries generalizing map with
  | nil => rw [List.foldl_nil, Entry.lastMember?_nil, Option.none_or]
  | cons entry entries ih =>
      rw [List.foldl_cons, ih, getElem?_write, ← List.singleton_append, Entry.lastMember?_append,
        Entry.lastMember?_singleton, Option.or_assoc]
      split <;> rfl

/-- The map of entries answers with the last one that names the pointer type. -/
theorem getElem?_ofEntries (entries : List Entry) (pointerType : String) :
    (ofEntries entries)[pointerType]? = Entry.lastMember? entries pointerType := by
  rw [ofEntries, getElem?_foldl_write_eq, Std.ExtTreeMap.getElem?_empty, Option.or_none]

/-- A member of the map of entries is that of one of them. -/
theorem mem_of_getElem?_ofEntries {entries : List Entry} {pointerType member : String}
    (h : (ofEntries entries)[pointerType]? = some member) : ⟨pointerType, member⟩ ∈ entries :=
  Entry.mem_of_lastMember? (getElem?_ofEntries entries pointerType ▸ h)

/-- Entries with the same last one for each pointer type make the same map. -/
theorem ofEntries_congr {entries others : List Entry}
    (h : ∀ pointerType, Entry.lastMember? others pointerType =
      Entry.lastMember? entries pointerType) : ofEntries others = ofEntries entries := by
  refine Std.ExtTreeMap.ext_getElem? fun pointerType => ?_
  rw [getElem?_ofEntries, getElem?_ofEntries, h]

end MemberMap

end CallTable
