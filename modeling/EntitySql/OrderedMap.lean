/-! # Ordered maps

    An `OrderedMap` holds values under texts and remembers in which order the
    keys came. Inserting under a key that is already there replaces the value
    and keeps the key's place. Each key occurs once.

    Two ordered maps are *equal as maps* if they hold equal values under the
    same keys, in whatever order.
-/

namespace EntitySql

variable {α β : Type}

/-! ## Entries -/

namespace Entries

/-- Puts a value under a key: in the key's place, or at the end. -/
def put (key : String) (value : α) : List (String × α) → List (String × α)
  | [] => [(key, value)]
  | (k, v) :: rest => if k = key then (k, value) :: rest else (k, v) :: put key value rest

/-- The value of the first entry with the key. -/
def find? (key : String) : List (String × α) → Option α
  | [] => none
  | (k, v) :: rest => if k = key then some v else find? key rest

theorem keys_put (key : String) (value : α) (es : List (String × α)) :
    (put key value es).map Prod.fst =
      if key ∈ es.map Prod.fst then es.map Prod.fst else es.map Prod.fst ++ [key] := by
  induction es with
  | nil => simp [put]
  | cons e es ih =>
    obtain ⟨k, v⟩ := e
    -- the value is either put here or somewhere in the rest
    by_cases h : k = key
    · simp [put, h]
    · have h' : ¬ key = k := fun e => h e.symm
      simp only [put, h, if_false, List.map_cons, List.mem_cons, h', false_or, ih]
      split <;> simp

theorem nodup_put (key : String) (value : α) {es : List (String × α)}
    (h : (es.map Prod.fst).Nodup) : ((put key value es).map Prod.fst).Nodup := by
  rw [keys_put]
  split
  · exact h
  · rename_i hk
    refine List.nodup_append.2 ⟨h, by simp, ?_⟩
    intro a ha b hb e
    simp at hb
    exact hk (hb ▸ e ▸ ha)

theorem find?_put (key key' : String) (value : α) (es : List (String × α)) :
    find? key' (put key value es) = if key = key' then some value else find? key' es := by
  induction es with
  | nil => simp [put, find?]
  | cons e es ih =>
    obtain ⟨k, v⟩ := e
    -- the entry in front may have the key that is written, that is read, or neither
    by_cases h : k = key
    · subst h
      by_cases h' : k = key' <;> simp [put, find?, h']
    · by_cases h' : key = key'
      · subst h'
        simp [put, find?, h, ih]
      · simp only [put, h, if_false, find?, ih, h']

theorem find?_isSome (key : String) (es : List (String × α)) :
    (find? key es).isSome = true ↔ key ∈ es.map Prod.fst := by
  induction es with
  | nil => simp [find?]
  | cons e es ih =>
    obtain ⟨k, v⟩ := e
    by_cases h : k = key
    · simp [find?, h]
    · have h' : ¬ key = k := fun e => h e.symm
      simp [find?, h, h', ih]

theorem find?_eq_none_iff (key : String) (es : List (String × α)) :
    find? key es = none ↔ key ∉ es.map Prod.fst := by
  rw [← find?_isSome]
  cases find? key es <;> simp

/-- Where no key occurs twice each entry is found. -/
theorem find?_eq_some_iff {key : String} {value : α} {es : List (String × α)}
    (h : (es.map Prod.fst).Nodup) : find? key es = some value ↔ (key, value) ∈ es := by
  induction es with
  | nil => simp [find?]
  | cons e es ih =>
    obtain ⟨k, v⟩ := e
    obtain ⟨hfresh, hes⟩ := List.nodup_cons.1 h
    -- no later entry has the key of the first one
    by_cases hk : k = key
    · subst hk
      have hrest : (k, value) ∉ es := fun hmem => hfresh (List.mem_map.2 ⟨_, hmem, rfl⟩)
      simp [find?, hrest, eq_comm]
    · have hk' : ¬ key = k := fun e => hk e.symm
      simp [find?, hk, hk', ih hes]

/-- Where no key occurs twice the order of the entries does not matter. -/
theorem find?_perm {es es' : List (String × α)} (h : es.Perm es') (hes : (es.map Prod.fst).Nodup)
    (key : String) : find? key es = find? key es' := by
  have hes' : (es'.map Prod.fst).Nodup := (h.map Prod.fst).nodup_iff.1 hes
  refine Option.ext fun value => ?_
  rw [find?_eq_some_iff hes, find?_eq_some_iff hes', h.mem_iff]

/-- A new key comes last. -/
theorem put_of_not_mem {key : String} {es : List (String × α)} (h : key ∉ es.map Prod.fst)
    (value : α) : put key value es = es ++ [(key, value)] := by
  induction es with
  | nil => rfl
  | cons e es ih =>
    obtain ⟨k, v⟩ := e
    obtain ⟨hk, hes⟩ := not_or.1 (fun h' => h (List.mem_cons.2 h'))
    have hk' : ¬ k = key := fun e => hk e.symm
    simp [put, hk', ih hes]

end Entries

/-! ## Maps -/

/-- Values under distinct texts, in the order in which the keys came. -/
structure OrderedMap (α : Type) where
  entries : List (String × α)
  nodup : (entries.map Prod.fst).Nodup

namespace OrderedMap

def empty : OrderedMap α := ⟨[], List.Pairwise.nil⟩

instance : Inhabited (OrderedMap α) := ⟨empty⟩
instance : EmptyCollection (OrderedMap α) := ⟨empty⟩

@[ext] theorem ext {m n : OrderedMap α} (h : m.entries = n.entries) : m = n := by
  cases m; cases n; cases h; rfl

instance [DecidableEq α] : DecidableEq (OrderedMap α) := fun m n =>
  if h : m.entries = n.entries then isTrue (ext h) else isFalse fun e => h (e ▸ rfl)

/-- Puts a value under a key: in the key's place, or at the end. -/
def insert (m : OrderedMap α) (key : String) (value : α) : OrderedMap α :=
  ⟨Entries.put key value m.entries, Entries.nodup_put key value m.nodup⟩

def get? (m : OrderedMap α) (key : String) : Option α := Entries.find? key m.entries

/-- The map of a list of entries, inserted from the first to the last. -/
def ofList (es : List (String × α)) : OrderedMap α :=
  es.foldl (fun m e => m.insert e.1 e.2) empty

def keys (m : OrderedMap α) : List String := m.entries.map Prod.fst

/-- The values in the order of their keys. -/
def values (m : OrderedMap α) : List α := m.entries.map Prod.snd

def isEmpty (m : OrderedMap α) : Bool := m.entries.isEmpty

/-- Equality as maps, given a comparison of the values. -/
def equals (eq : α → α → Bool) (m n : OrderedMap α) : Bool :=
  m.entries.length == n.entries.length &&
    m.entries.all fun e => match n.get? e.1 with
      | some v => eq e.2 v
      | none => false

@[simp] theorem get?_empty (key : String) : (empty : OrderedMap α).get? key = none := rfl

theorem get?_eq_none_iff {m : OrderedMap α} {key : String} : m.get? key = none ↔ key ∉ m.keys :=
  Entries.find?_eq_none_iff key m.entries

theorem mem_values_of_get? {m : OrderedMap α} {key : String} {value : α}
    (h : m.get? key = some value) : value ∈ m.values :=
  List.mem_map.2 ⟨_, (Entries.find?_eq_some_iff m.nodup).1 h, rfl⟩

theorem get?_insert (m : OrderedMap α) (key key' : String) (value : α) :
    (m.insert key value).get? key' = if key = key' then some value else m.get? key' :=
  Entries.find?_put key key' value m.entries

/-- Where no key occurs twice, inserting entries keeps them as they are. -/
theorem entries_ofList {es : List (String × α)} (h : (es.map Prod.fst).Nodup) :
    (ofList es).entries = es := by
  -- from any map, as long as the keys that follow are new to it
  have hfold : ∀ (m : OrderedMap α) (es : List (String × α)),
      ((m.entries ++ es).map Prod.fst).Nodup →
      (es.foldl (fun m e => m.insert e.1 e.2) m).entries = m.entries ++ es := by
    intro m es
    induction es generalizing m with
    | nil => exact fun _ => (List.append_nil _).symm
    | cons e es ih =>
      intro hes
      have hfresh : e.1 ∉ m.entries.map Prod.fst := by
        intro hmem
        rw [List.map_append] at hes
        exact (List.nodup_append.1 hes).2.2 e.1 hmem e.1 (by simp) rfl
      have hinsert : (m.insert e.1 e.2).entries = m.entries ++ [e] :=
        Entries.put_of_not_mem hfresh e.2
      have hstep := ih (m.insert e.1 e.2) (by simpa [hinsert] using hes)
      rw [List.foldl_cons, hstep, hinsert, List.append_assoc, List.singleton_append]
  exact hfold empty es h

theorem keys_insert (m : OrderedMap α) (key : String) (value : α) :
    (m.insert key value).keys = if key ∈ m.keys then m.keys else m.keys ++ [key] :=
  Entries.keys_put key value m.entries

end OrderedMap

end EntitySql
