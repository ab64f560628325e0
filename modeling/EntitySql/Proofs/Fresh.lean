import EntitySql.OrderedMap
import Mathlib.Data.List.Nodup

/-! # Adding what is not there yet

    Columns, joins and sort keys are added one after the other, each unless the
    key of an element that is there is its own. So keys stay distinct, elements
    are only left out and never moved, and none is left out if all keys differ.

    Adding to a list with contents is adding to an empty one and leaving out
    what the contents have already (`foldl_addFresh`). Where elements are their
    own keys, adding to an empty list keeps the first mention of each
    (`foldl_addFresh_nil`).
-/

namespace EntitySql

/-! ## One element after the other -/

section addFresh

variable {α κ : Type} [DecidableEq κ] (key : α → κ)

/-- Appends an element unless one of the same key is there. -/
def addFresh (as : List α) (a : α) : List α := if key a ∈ as.map key then as else as ++ [a]

theorem addFresh_of_mem {as : List α} {a : α} (h : key a ∈ as.map key) :
    addFresh key as a = as := if_pos h

theorem addFresh_of_not_mem {as : List α} {a : α} (h : key a ∉ as.map key) :
    addFresh key as a = as ++ [a] := if_neg h

/-- After an element has been added, or left out, its key is there. -/
theorem mem_map_addFresh {k : κ} {as : List α} {a : α} :
    k ∈ (addFresh key as a).map key ↔ k ∈ as.map key ∨ k = key a := by
  by_cases h : key a ∈ as.map key
  · rw [addFresh_of_mem key h]
    constructor
    · exact Or.inl
    · intro hk
      obtain hk | rfl := hk
      · exact hk
      · exact h
  · rw [addFresh_of_not_mem key h, List.map_append, List.mem_append, List.map_singleton,
      List.mem_singleton]

/-- The keys of all elements are there in the end, also of those that have been left out. -/
theorem mem_map_foldl_addFresh {k : κ} {as xs : List α} :
    k ∈ (xs.foldl (addFresh key) as).map key ↔ k ∈ as.map key ∨ k ∈ xs.map key := by
  induction xs generalizing as with
  | nil => exact ⟨Or.inl, fun h => h.resolve_right List.not_mem_nil⟩
  | cons x xs ih =>
    rw [List.foldl_cons, ih, mem_map_addFresh, or_assoc]
    exact or_congr_right List.mem_cons.symm

theorem nodup_map_addFresh {as : List α} (a : α) (h : (as.map key).Nodup) :
    ((addFresh key as a).map key).Nodup := by
  by_cases hkey : key a ∈ as.map key
  · rw [addFresh_of_mem key hkey]
    exact h
  · rw [addFresh_of_not_mem key hkey, List.map_append]
    refine List.nodup_append.2 ⟨h, List.nodup_singleton _, ?_⟩
    intro k hk l hl heq
    obtain rfl : l = key a := List.mem_singleton.1 hl
    exact hkey (heq ▸ hk)

/-- No two elements have one key, if none had. -/
theorem nodup_map_foldl_addFresh {as : List α} (xs : List α) (h : (as.map key).Nodup) :
    ((xs.foldl (addFresh key) as).map key).Nodup := by
  induction xs generalizing as with
  | nil => exact h
  | cons x xs ih => exact ih (nodup_map_addFresh key x h)

/-- Elements are only left out, never changed or moved. -/
theorem foldl_addFresh_sublist (as xs : List α) :
    (xs.foldl (addFresh key) as).Sublist (as ++ xs) := by
  induction xs generalizing as with
  | nil =>
    rw [List.append_nil]
    exact List.Sublist.refl as
  | cons x xs ih =>
    rw [List.foldl_cons]
    -- an element whose key is taken is left out, any other one is kept
    by_cases h : key x ∈ as.map key
    · rw [addFresh_of_mem key h]
      have hskip : (as ++ xs).Sublist (as ++ x :: xs) :=
        List.Sublist.append_left (List.sublist_cons_self x xs) as
      exact (ih as).trans hskip
    · have hkeep := ih (as ++ [x])
      rw [← List.append_cons] at hkeep
      rw [addFresh_of_not_mem key h]
      exact hkeep

/-- If no two elements have one key, none is left out. -/
theorem foldl_addFresh_of_nodup {as xs : List α} (h : ((as ++ xs).map key).Nodup) :
    xs.foldl (addFresh key) as = as ++ xs := by
  induction xs generalizing as with
  | nil => exact (List.append_nil as).symm
  | cons x xs ih =>
    rw [List.append_cons] at h ⊢
    -- the key of the next element is new to what has been gathered, as it occurs only once
    have hkey : key x ∉ as.map key := by
      rw [List.map_append, List.map_append] at h
      have hprefix := (List.nodup_append.1 h).1
      intro hmem
      exact (List.nodup_append.1 hprefix).2.2 _ hmem _ (List.mem_singleton_self _) rfl
    rw [List.foldl_cons, addFresh_of_not_mem key hkey]
    exact ih h

/-! ## Two lists at once -/

/-- The elements whose keys no element of the first list has. -/
def freshIn (as bs : List α) : List α := bs.filter fun b => key b ∉ as.map key

theorem freshIn_self (as : List α) : freshIn key as as = [] := by
  refine List.filter_eq_nil_iff.2 fun a ha => ?_
  have hmem : key a ∈ as.map key := List.mem_map_of_mem ha
  simpa using hmem

theorem freshIn_id [DecidableEq α] (as bs : List α) :
    freshIn id as bs = bs.filter (· ∉ as) := by
  unfold freshIn
  rw [List.map_id]
  rfl

theorem freshIn_append_single (as bs : List α) (b : α) :
    freshIn key as (bs ++ [b]) =
      if key b ∈ as.map key then freshIn key as bs else freshIn key as bs ++ [b] := by
  unfold freshIn
  rw [List.filter_append, List.filter_singleton]
  by_cases h : key b ∈ as.map key <;> simp [h]

theorem mem_map_append_freshIn {as bs : List α} {k : κ} :
    k ∈ (as ++ freshIn key as bs).map key ↔ k ∈ as.map key ∨ k ∈ bs.map key := by
  rw [List.map_append, List.mem_append]
  constructor
  · intro h
    rcases h with h | h
    · exact Or.inl h
    · obtain ⟨b, hb, rfl⟩ := List.mem_map.1 h
      exact Or.inr (List.mem_map_of_mem (List.mem_of_mem_filter hb))
  · intro h
    -- a key of the second list is fresh unless the first one has it
    by_cases hk : k ∈ as.map key
    · exact Or.inl hk
    · obtain ⟨b, hb, rfl⟩ := List.mem_map.1 (h.resolve_left hk)
      exact Or.inr (List.mem_map_of_mem (List.mem_filter.2 ⟨hb, by simpa using hk⟩))

/-- One element more is added to both lists alike, but for what the first list has already. -/
theorem addFresh_append_freshIn (as bs : List α) (a : α) :
    addFresh key (as ++ freshIn key as bs) a = as ++ freshIn key as (addFresh key bs a) := by
  have htaken : key a ∈ (as ++ freshIn key as bs).map key ↔
      key a ∈ as.map key ∨ key a ∈ bs.map key := mem_map_append_freshIn key
  by_cases hb : key a ∈ bs.map key
  · rw [addFresh_of_mem key (htaken.2 (Or.inr hb)), addFresh_of_mem key hb]
  · -- it is added to the second list, and stays there unless the first one has its key
    rw [addFresh_of_not_mem key hb, freshIn_append_single]
    by_cases ha : key a ∈ as.map key
    · rw [if_pos ha, addFresh_of_mem key (htaken.2 (Or.inl ha))]
    · have hfree : key a ∉ (as ++ freshIn key as bs).map key := fun h =>
        (htaken.1 h).elim ha hb
      rw [if_neg ha, addFresh_of_not_mem key hfree, List.append_assoc]

theorem foldl_addFresh_append_freshIn (as bs xs : List α) :
    xs.foldl (addFresh key) (as ++ freshIn key as bs) =
      as ++ freshIn key as (xs.foldl (addFresh key) bs) := by
  induction xs generalizing bs with
  | nil => rfl
  | cons x xs ih => rw [List.foldl_cons, List.foldl_cons, addFresh_append_freshIn, ih]

/-- Elements are added to a list as to an empty one, but for what the list has already. -/
theorem foldl_addFresh (as xs : List α) :
    xs.foldl (addFresh key) as = as ++ freshIn key as (xs.foldl (addFresh key) []) := by
  have h := foldl_addFresh_append_freshIn key as [] xs
  rwa [freshIn, List.filter_nil, List.append_nil] at h

end addFresh

/-! ## First mentions -/

section mentions

variable {α : Type} [DecidableEq α]

theorem addFresh_id (as : List α) (a : α) :
    addFresh id as a = if a ∈ as then as else as ++ [a] := by
  unfold addFresh
  rw [List.map_id]
  rfl

/-- Added elements come behind those that are there, each where it is mentioned first. -/
theorem foldl_addFresh_id (as xs : List α) :
    xs.foldl (addFresh id) as = as ++ (xs.filter (· ∉ as)).eraseDups := by
  induction xs generalizing as with
  | nil => exact (List.append_nil as).symm
  | cons x xs ih =>
    rw [List.foldl_cons, ih, addFresh_id]
    by_cases h : x ∈ as
    · have hskip : (x :: xs).filter (· ∉ as) = xs.filter (· ∉ as) :=
        List.filter_cons_of_neg (by simpa using h)
      rw [if_pos h, hskip]
    · -- what is mentioned again is neither among the elements before nor `x`
      have hkeep : (x :: xs).filter (· ∉ as) = x :: xs.filter (· ∉ as) :=
        List.filter_cons_of_pos (by simpa using h)
      have hrest : xs.filter (· ∉ as ++ [x]) =
          (xs.filter (· ∉ as)).filter fun y => !y == x := by
        rw [List.filter_filter]
        apply List.filter_congr
        intro y _
        by_cases hy : y = x <;> simp [hy]
      rw [if_neg h, hkeep, List.eraseDups_cons, hrest, List.append_assoc]
      rfl

theorem foldl_addFresh_nil (xs : List α) : xs.foldl (addFresh id) [] = xs.eraseDups := by
  rw [foldl_addFresh_id, List.nil_append, List.filter_eq_self.2 (by simp)]

/-- The first mentions in a list put together are those of its parts, put together. -/
theorem nodup_eraseDups (xs : List α) : xs.eraseDups.Nodup := by
  have hkeys : ((xs.foldl (addFresh id) []).map id).Nodup :=
    nodup_map_foldl_addFresh id xs List.nodup_nil
  rwa [List.map_id, foldl_addFresh_nil] at hkeys

theorem eraseDups_append_congr {xs xs' ys ys' : List α} (hx : xs.eraseDups = xs'.eraseDups)
    (hy : ys.eraseDups = ys'.eraseDups) : (xs ++ ys).eraseDups = (xs' ++ ys').eraseDups := by
  have hparts (xs ys : List α) : (xs ++ ys).eraseDups =
      xs.eraseDups ++ freshIn id xs.eraseDups ys.eraseDups := by
    rw [← foldl_addFresh_nil, List.foldl_append, foldl_addFresh, foldl_addFresh_nil,
      foldl_addFresh_nil]
  rw [hparts, hparts, hx, hy]

/-- What has been mentioned can be mentioned again. -/
theorem eraseDups_append_of_subset {xs ys : List α} (h : ys ⊆ xs) :
    (xs ++ ys).eraseDups = xs.eraseDups := by
  have hnone : ys.removeAll xs = [] := by
    apply List.filter_eq_nil_iff.2
    intro y hy
    simpa using h hy
  rw [List.eraseDups_append, hnone]
  exact List.append_nil _

end mentions

/-! ## Sort keys -/

namespace OrderedMap

variable {α : Type}

/-- A map is determined by its keys in order and their values. -/
theorem eq_of_keys_of_get? {m n : OrderedMap α} (hkeys : m.keys = n.keys)
    (hget : ∀ key, m.get? key = n.get? key) : m = n := by
  obtain ⟨es, hes⟩ := m
  obtain ⟨fs, hfs⟩ := n
  apply ext
  show es = fs
  replace hkeys : es.map Prod.fst = fs.map Prod.fst := hkeys
  replace hget : ∀ key, Entries.find? key es = Entries.find? key fs := hget
  induction es generalizing fs with
  | nil => exact (List.map_eq_nil_iff.1 hkeys.symm).symm
  | cons e es ih =>
    cases fs with
    | nil => exact absurd hkeys (by simp)
    | cons f fs =>
      obtain ⟨k, v⟩ := e
      obtain ⟨k', w⟩ := f
      obtain ⟨hk, hrest⟩ := List.cons.inj hkeys
      obtain rfl : k = k' := hk
      obtain ⟨hfresh, hes⟩ := List.nodup_cons.1 hes
      obtain ⟨hfresh', hfs⟩ := List.nodup_cons.1 hfs
      have hvalue : v = w := by
        have hfirst := hget k
        simpa [Entries.find?] using hfirst
      have hothers : ∀ key, Entries.find? key es = Entries.find? key fs := by
        intro key
        by_cases h : k = key
        · -- the first key does not occur again
          have hnone {gs : List (String × α)} (hgs : k ∉ gs.map Prod.fst) :
              Entries.find? k gs = none := by
            rw [← Entries.find?_isSome] at hgs
            simpa using hgs
          rw [← h, hnone hfresh, hnone hfresh']
        · have hthis := hget key
          rwa [Entries.find?, Entries.find?, if_neg h, if_neg h] at hthis
      rw [hvalue, ih hes fs hfs hrest hothers]

theorem keys_foldl_insert (m : OrderedMap α) (es : List (String × α)) :
    (es.foldl (fun m e => m.insert e.1 e.2) m).keys =
      (es.map Prod.fst).foldl (addFresh id) m.keys := by
  induction es generalizing m with
  | nil => rfl
  | cons e es ih =>
    rw [List.foldl_cons, ih, List.map_cons, List.foldl_cons, keys_insert, addFresh, List.map_id]
    rfl

/-- If a map has the values of another one and else those of a third, it does so after the same
    insertions into it and into that other one. -/
theorem get?_foldl_insert {m m' n : OrderedMap α} (es : List (String × α))
    (h : ∀ key, m'.get? key = (n.get? key).or (m.get? key)) (key : String) :
    (es.foldl (fun m e => m.insert e.1 e.2) m').get? key =
      ((es.foldl (fun m e => m.insert e.1 e.2) n).get? key).or (m.get? key) := by
  induction es generalizing m' n with
  | nil => exact h key
  | cons e es ih =>
    -- inserting the same entry into both keeps the relation between them
    refine ih fun key => ?_
    rw [get?_insert, get?_insert]
    split
    · rfl
    · exact h key

end OrderedMap

end EntitySql
