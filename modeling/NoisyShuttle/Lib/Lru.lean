import Mathlib.Data.Finset.Card
import Mathlib.Data.List.Nodup
import Mathlib.Data.List.Perm.Subperm

/-!
# Least-recently-used caches

Entries stand in order of use, the last one got or put first. A key is forgotten only after
`capacity` other keys have been used since.
-/

namespace NoisyShuttle

structure LruCache (κ ν : Type*) where
  capacity : Nat
  entries : List (κ × ν)
  nodup : (entries.map Prod.fst).Nodup
  length_le : entries.length ≤ capacity

namespace LruCache

variable {κ ν : Type*} [DecidableEq κ]

def keys (c : LruCache κ ν) : List κ := c.entries.map Prod.fst

def new (capacity : Nat) : LruCache κ ν := ⟨capacity, [], List.nodup_nil, Nat.zero_le _⟩

def others (k : κ) (entries : List (κ × ν)) : List (κ × ν) := entries.filter fun entry => entry.1 ≠ k

theorem others_keys (k : κ) (entries : List (κ × ν)) :
    (others k entries).map Prod.fst = (entries.map Prod.fst).filter (· ≠ k) := by
  simp [others, List.filter_map, Function.comp_def]

theorem promote_nodup {entries : List (κ × ν)} (k : κ) (v : ν) (nodup : (entries.map Prod.fst).Nodup) :
    (((k, v) :: others k entries).map Prod.fst).Nodup := by
  rw [List.map_cons, others_keys, List.nodup_cons]
  exact ⟨by simp, nodup.filter _⟩

/-- Put `k` first, evicting the least recently used entry of a full cache. -/
def put (k : κ) (v : ν) (c : LruCache κ ν) : LruCache κ ν where
  capacity := c.capacity
  entries := ((k, v) :: others k c.entries).take c.capacity
  nodup := by
    rw [List.map_take]
    exact (promote_nodup k v c.nodup).sublist (List.take_sublist ..)
  length_le := by simp

def get (k : κ) (c : LruCache κ ν) : Option ν × LruCache κ ν :=
  match c.entries.find? (fun entry => entry.1 = k) with
  | some entry => (some entry.2, c.put k entry.2)
  | none => (none, c)

theorem keys_put (k : κ) (v : ν) (c : LruCache κ ν) :
    (c.put k v).keys = (k :: c.keys.filter (· ≠ k)).take c.capacity := by
  simp [keys, put, List.map_take, others_keys]

theorem get_of_mem {k : κ} {c : LruCache κ ν} (member : k ∈ c.keys) :
    ∃ v, c.get k = (some v, c.put k v) := by
  unfold get
  cases found : c.entries.find? (fun entry => entry.1 = k) with
  | some entry => exact ⟨entry.2, rfl⟩
  | none =>
    obtain ⟨entry, present, same⟩ := List.mem_map.mp member
    simpa [same] using List.find?_eq_none.mp found entry present

theorem get_of_not_mem {k : κ} {c : LruCache κ ν} (absent : k ∉ c.keys) : c.get k = (none, c) := by
  unfold get
  have missing : c.entries.find? (fun entry => entry.1 = k) = none := by
    apply List.find?_eq_none.mpr
    intro entry present same
    exact absent (List.mem_map.mpr ⟨entry, present, by simpa using same⟩)
  rw [missing]

/-- The keys used more recently than `k` all lie in `since`. -/
def UsedSince (c : LruCache κ ν) (k : κ) (since : Finset κ) : Prop :=
  ∃ newer older, c.keys = newer ++ k :: older ∧ ∀ x ∈ newer, x ∈ since

omit [DecidableEq κ] in
theorem UsedSince.mem {c : LruCache κ ν} {k : κ} {since : Finset κ} (h : c.UsedSince k since) : k ∈ c.keys := by
  obtain ⟨newer, older, split, _⟩ := h
  simp [split]

omit [DecidableEq κ] in
theorem UsedSince.mono {c : LruCache κ ν} {k : κ} {since later : Finset κ} (h : c.UsedSince k since)
    (sub : since ⊆ later) : c.UsedSince k later := by
  obtain ⟨newer, older, split, within⟩ := h
  exact ⟨newer, older, split, fun x member => sub (within x member)⟩

theorem usedSince_put_self (c : LruCache κ ν) (k : κ) (v : ν) (room : 0 < c.capacity) :
    (c.put k v).UsedSince k ∅ := by
  obtain ⟨n, cap⟩ := Nat.exists_eq_succ_of_ne_zero (Nat.ne_of_gt room)
  exact ⟨[], (c.keys.filter (· ≠ k)).take n, by rw [keys_put, cap]; rfl, by simp⟩

/-- Using another key keeps `k` while fewer than `capacity` keys were used since. -/
theorem usedSince_put_other {c : LruCache κ ν} {k x : κ} {v : ν} {since : Finset κ} (h : c.UsedSince k since)
    (different : x ≠ k) (used : x ∈ since) (few : since.card < c.capacity) : (c.put x v).UsedSince k since := by
  obtain ⟨newer, older, split, within⟩ := h
  have unique : (newer ++ k :: older).Nodup := split ▸ c.nodup
  have kept : (newer ++ k :: older).filter (· ≠ x) =
      newer.filter (· ≠ x) ++ k :: older.filter (· ≠ x) := by
    simp [List.filter_append, Ne.symm different]
  have sub : ∀ y ∈ x :: newer.filter (· ≠ x), y ∈ since := by
    intro y member
    rcases List.mem_cons.mp member with rfl | member
    · exact used
    · exact within y (List.mem_of_mem_filter member)
  have nodup : (x :: newer.filter (· ≠ x)).Nodup := by
    refine List.nodup_cons.mpr ⟨by simp, ?_⟩
    exact (unique.sublist (List.sublist_append_left ..)).filter _
  have short : (x :: newer.filter (· ≠ x)).length < c.capacity := by
    have card := Finset.card_le_card (s := (x :: newer.filter (· ≠ x)).toFinset) (t := since)
      (fun y member => sub y (List.mem_toFinset.mp member))
    rw [List.toFinset_card_of_nodup nodup] at card
    omega
  refine ⟨x :: newer.filter (· ≠ x),
    (older.filter (· ≠ x)).take (c.capacity - (x :: newer.filter (· ≠ x)).length - 1), ?_, sub⟩
  rw [keys_put, split, kept, ← List.cons_append, List.take_append, List.take_of_length_le (by omega)]
  obtain ⟨n, left⟩ : ∃ n, c.capacity - (x :: newer.filter (· ≠ x)).length = n + 1 :=
    ⟨c.capacity - (x :: newer.filter (· ≠ x)).length - 1, by omega⟩
  rw [left]
  rfl

theorem usedSince_put {c : LruCache κ ν} {k x : κ} {v : ν} {since : Finset κ} (h : c.UsedSince k since)
    (used : x = k ∨ x ∈ since) (few : since.card < c.capacity) : (c.put x v).UsedSince k since := by
  by_cases same : x = k
  · subst same
    exact (usedSince_put_self c x v (by omega)).mono (Finset.empty_subset _)
  · exact usedSince_put_other h same (used.resolve_left same) few

/-! ### Values

A cache in front of a source of values: what is used for a key is what the cache has, or else a fresh
value, which the cache then keeps. -/

omit [DecidableEq κ] in
theorem value_unique {c : LruCache κ ν} {k : κ} {v w : ν} (one : (k, v) ∈ c.entries) (two : (k, w) ∈ c.entries) :
    v = w :=
  congrArg Prod.snd (List.inj_on_of_nodup_map c.nodup one two rfl)

theorem get_of_entry {c : LruCache κ ν} {k : κ} {v : ν} (entry : (k, v) ∈ c.entries) :
    c.get k = (some v, c.put k v) := by
  unfold get
  cases found : c.entries.find? (fun entry => entry.1 = k) with
  | none =>
    have missing := List.find?_eq_none.mp found (k, v) entry
    simp at missing
  | some other =>
    obtain ⟨key, value⟩ := other
    have same : key = k := by simpa using List.find?_some found
    subst same
    rw [value_unique (List.mem_of_find?_eq_some found) entry]

theorem entry_of_get {c after : LruCache κ ν} {k : κ} {v : ν} (h : c.get k = (some v, after)) :
    (k, v) ∈ c.entries ∧ after = c.put k v := by
  by_cases member : k ∈ c.keys
  · obtain ⟨⟨key, w⟩, entry, rfl⟩ := List.mem_map.mp member
    have got := get_of_entry entry
    rw [h] at got
    cases got
    exact ⟨entry, rfl⟩
  · rw [get_of_not_mem member] at h
    cases h

theorem absent_of_get {c after : LruCache κ ν} {k : κ} (h : c.get k = (none, after)) : after = c := by
  unfold get at h
  split at h
  · cases h
  · cases h
    rfl

/-- The entry put last comes first. -/
theorem head_put (c : LruCache κ ν) (k : κ) (v : ν) (room : 0 < c.capacity) :
    (c.put k v).entries.head? = some (k, v) := by
  obtain ⟨n, cap⟩ := Nat.exists_eq_succ_of_ne_zero (Nat.ne_of_gt room)
  simp [put, cap]

theorem mem_of_mem_put {c : LruCache κ ν} {k x : κ} {v w : ν} (different : x ≠ k)
    (entry : (k, v) ∈ (c.put x w).entries) : (k, v) ∈ c.entries := by
  rcases List.mem_cons.mp (List.mem_of_mem_take entry) with same | old
  · exact absurd (congrArg Prod.fst same).symm different
  · exact List.mem_of_mem_filter old

theorem entry_put_other {c : LruCache κ ν} {k x : κ} {v w : ν} (entry : (k, v) ∈ c.entries) (different : x ≠ k)
    (kept : k ∈ (c.put x w).keys) : (k, v) ∈ (c.put x w).entries := by
  obtain ⟨⟨key, u⟩, stays, rfl⟩ := List.mem_map.mp kept
  rw [value_unique entry (mem_of_mem_put different stays)]
  exact stays

/-- The other keys among `uses`. -/
def otherKeys (k : κ) (uses : List (κ × ν)) : Finset κ := ((uses.map Prod.fst).filter (· ≠ k)).toFinset

theorem otherKeys_append (k : κ) (uses : List (κ × ν)) (use : κ × ν) :
    otherKeys k (uses ++ [use]) = if use.1 = k then otherKeys k uses else insert use.1 (otherKeys k uses) := by
  ext x
  by_cases same : use.1 = k
  · simp [otherKeys, same]
  · simp only [otherKeys, same, if_false, List.map_append, List.filter_append, List.toFinset_append]
    simp [same]

/-- Every use in the history, oldest first, with few other keys after it still decides its key. -/
def Remembers (c : LruCache κ ν) (uses : List (κ × ν)) : Prop :=
  ∀ before k v after, uses = before ++ (k, v) :: after → (otherKeys k after).card < c.capacity →
    (k, v) ∈ c.entries ∧ c.UsedSince k (otherKeys k after)

theorem remembers_nil (c : LruCache κ ν) : c.Remembers [] := by
  intro before k v after split
  cases before <;> cases split

/-- `x` is used with the value `w`: that of the cache, if it has one. -/
theorem Remembers.put {c : LruCache κ ν} {uses : List (κ × ν)} (h : c.Remembers uses) {x : κ} {w : ν}
    (cached : ∀ v, (x, v) ∈ c.entries → v = w) (room : 0 < c.capacity) :
    (c.put x w).Remembers (uses ++ [(x, w)]) := by
  intro before k v after split few
  have own : (x, w) ∈ (c.put x w).entries := List.mem_of_mem_head? (head_put c x w room)
  rcases List.eq_nil_or_concat after with rfl | ⟨earlier, last, rfl⟩
  · -- the use that is new
    obtain ⟨rfl, rfl⟩ := Prod.mk.inj (List.cons.inj (List.append_inj_right' split rfl)).1
    exact ⟨own, (usedSince_put_self c x w room).mono (Finset.empty_subset _)⟩
  · rw [List.concat_eq_append, ← List.cons_append, ← List.append_assoc] at split
    obtain ⟨old, new⟩ := List.append_inj' split rfl
    obtain rfl := (List.cons.inj new).1
    rw [List.concat_eq_append, otherKeys_append] at few ⊢
    by_cases same : x = k
    · subst same
      simp only [if_true] at few ⊢
      obtain ⟨entry, since⟩ := h before x v earlier old few
      rw [cached v entry]
      exact ⟨own, usedSince_put since (Or.inl rfl) few⟩
    · simp only [same, if_false] at few ⊢
      have fewer := Nat.lt_of_le_of_lt (Finset.card_le_card (Finset.subset_insert x (otherKeys k earlier))) few
      obtain ⟨entry, since⟩ := h before k v earlier old fewer
      have kept : (c.put x w).UsedSince k (insert x (otherKeys k earlier)) :=
        usedSince_put_other (since.mono (Finset.subset_insert x _)) same (Finset.mem_insert_self ..) few
      exact ⟨entry_put_other entry same kept.mem, kept⟩

/-- Two uses of a key with few other keys between them have the same value. -/
def Sticky (capacity : Nat) (uses : List (κ × ν)) : Prop :=
  ∀ before k v between w after, uses = before ++ (k, v) :: (between ++ (k, w) :: after) →
    (otherKeys k between).card < capacity → v = w

theorem sticky_nil (capacity : Nat) : Sticky capacity ([] : List (κ × ν)) := by
  intro before k v between w after split
  cases before <;> cases split

theorem Remembers.sticky {c : LruCache κ ν} {uses : List (κ × ν)} (h : c.Remembers uses) {x : κ} {w : ν}
    (sticky : Sticky c.capacity uses) (cached : ∀ v, (x, v) ∈ c.entries → v = w) :
    Sticky c.capacity (uses ++ [(x, w)]) := by
  intro before k v between u after split few
  rcases List.eq_nil_or_concat after with rfl | ⟨earlier, last, rfl⟩
  · rw [← List.cons_append, ← List.append_assoc] at split
    obtain ⟨old, new⟩ := List.append_inj' split rfl
    obtain ⟨rfl, rfl⟩ := Prod.mk.inj (List.cons.inj new).1
    exact cached v (h before x v between old few).1
  · have regroup : before ++ (k, v) :: (between ++ (k, u) :: earlier.concat last) =
        before ++ (k, v) :: (between ++ (k, u) :: earlier) ++ [last] := by simp
    rw [regroup] at split
    exact sticky before k v between u earlier (List.append_inj' split rfl).1 few

end LruCache
end NoisyShuttle
