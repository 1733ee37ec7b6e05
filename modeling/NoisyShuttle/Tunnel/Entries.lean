import NoisyShuttle.Tunnel.Fingerprint
import Mathlib.Data.List.Forall2
import Mathlib.Data.List.Nodup

/-!
# Maps by type

`oldextmap` and `oldentmap` are emptied while another list is walked. What a walk of this kind puts into
each place.
-/

namespace NoisyShuttle.Tunnel

variable {α β γ : Type}

/-! ## Places -/

/-- `values` for `keys`, of which `seen` came before: the first place of a key takes its entry of the map,
and every other place something made up. -/
inductive Fills (map : List (UInt16 × α)) (taken : α → β → Prop) (made : UInt16 → β → Prop) :
    List UInt16 → List UInt16 → List β → Prop
  | nil (seen : List UInt16) : Fills map taken made seen [] []
  | taken {seen keys : List UInt16} {key : UInt16} {entry : α} {value : β} {values : List β} (fresh : key ∉ seen)
      (known : map.lookup key = some entry) (fits : taken entry value)
      (rest : Fills map taken made (key :: seen) keys values) :
      Fills map taken made seen (key :: keys) (value :: values)
  | made {seen keys : List UInt16} {key : UInt16} {value : β} {values : List β}
      (missing : key ∈ seen ∨ map.lookup key = none) (fits : made key value)
      (rest : Fills map taken made (key :: seen) keys values) :
      Fills map taken made seen (key :: keys) (value :: values)

/-- What is left of a map when the keys of `seen` are removed. -/
def without (seen : List UInt16) (map : List (UInt16 × α)) : List (UInt16 × α) := map.filter (·.1 ∉ seen)

theorem without_nil (map : List (UInt16 × α)) : without [] map = map := by
  simp [without]

theorem removeEntry_of_lookup {key : UInt16} {map : List (UInt16 × α)} {found : Option α}
    (looked : map.lookup key = found) : removeEntry key map = (found, (removeEntry key map).2) := by
  rw [removeEntry, looked]

theorem removeEntry_without (key : UInt16) (seen : List UInt16) (map : List (UInt16 × α)) :
    (removeEntry key (without seen map)).2 = without (key :: seen) map := by
  simp [removeEntry, without, List.filter_filter, not_or]

theorem lookup_without {key : UInt16} {seen : List UInt16} (map : List (UInt16 × α)) :
    (without seen map).lookup key = if key ∈ seen then none else map.lookup key := by
  induction map with
  | nil => simp [without]
  | cons pair map ih =>
    obtain ⟨other, entry⟩ := pair
    unfold without at ih ⊢
    by_cases same : key = other
    · subst same
      by_cases member : key ∈ seen
      · simpa [member] using ih
      · simp [member]
    · by_cases member : other ∈ seen
      · simpa [member, List.lookup_cons, beq_eq_false_iff_ne.mpr same] using ih
      · simpa [member, List.lookup_cons, beq_eq_false_iff_ne.mpr same] using ih

theorem lookup_removeEntry (key other : UInt16) (map : List (UInt16 × α)) :
    (removeEntry other map).2.lookup key = if key = other then none else map.lookup key := by
  have removed := removeEntry_without other [] map
  rw [without_nil] at removed
  rw [removed, lookup_without]
  simp only [List.mem_singleton]

theorem removeEntry_cases {key : UInt16} {seen : List UInt16} {map left : List (UInt16 × α)} {found : Option α}
    (h : removeEntry key (without seen map) = (found, left)) :
    left = without (key :: seen) map ∧
      (∀ entry, found = some entry → key ∉ seen ∧ map.lookup key = some entry) ∧
      (found = none → key ∈ seen ∨ map.lookup key = none) := by
  have removed := removeEntry_without key seen map
  rw [h] at removed
  have looked : (without seen map).lookup key = found := congrArg Prod.fst h
  rw [lookup_without] at looked
  refine ⟨removed, ?_, ?_⟩
  · rintro entry rfl
    by_cases member : key ∈ seen
    · rw [if_pos member] at looked
      cases looked
    · rw [if_neg member] at looked
      exact ⟨member, looked⟩
  · rintro rfl
    by_cases member : key ∈ seen
    · exact .inl member
    · rw [if_neg member] at looked
      exact .inr looked

theorem Fills.mono {map : List (UInt16 × α)} {taken : α → β → Prop} {made : UInt16 → β → Prop} {taken' : α → γ → Prop}
    {made' : UInt16 → γ → Prop} {R : β → γ → Prop} {seen keys : List UInt16} {values : List β} {values' : List γ}
    (fills : Fills map taken made seen keys values) (related : List.Forall₂ R values values')
    (takes : ∀ a b c, taken a b → R b c → taken' a c) (makes : ∀ key b c, made key b → R b c → made' key c) :
    Fills map taken' made' seen keys values' := by
  induction fills generalizing values' with
  | nil seen =>
    cases related
    exact .nil seen
  | taken fresh known fits rest ih =>
    cases related with
    | cons head tail => exact .taken fresh known (takes _ _ _ fits head) (ih tail)
  | made missing fits rest ih =>
    cases related with
    | cons head tail => exact .made missing (makes _ _ _ fits head) (ih tail)

theorem Fills.forall₂ {map : List (UInt16 × α)} {taken : α → β → Prop} {made : UInt16 → β → Prop}
    {R : UInt16 → β → Prop} {seen keys : List UInt16} {values : List β} (fills : Fills map taken made seen keys values)
    (takes : ∀ key entry value, map.lookup key = some entry → taken entry value → R key value)
    (makes : ∀ key value, made key value → R key value) : List.Forall₂ R keys values := by
  induction fills with
  | nil seen => exact .nil
  | taken fresh known fits rest ih => exact .cons (takes _ _ _ known fits) ih
  | made missing fits rest ih => exact .cons (makes _ _ fits) ih

/-- The same at one position; the first place of a key is its index. -/
def FilledAt (map : List (UInt16 × α)) (taken : α → β → Prop) (made : UInt16 → β → Prop)
    (seen keys : List UInt16) (i : Nat) (key : UInt16) (value : β) : Prop :=
  (∃ entry, key ∉ seen ∧ keys.idxOf key = i ∧ map.lookup key = some entry ∧ taken entry value) ∨
    (key ∈ seen ∨ keys.idxOf key ≠ i ∨ map.lookup key = none) ∧ made key value

theorem FilledAt.cons {map : List (UInt16 × α)} {taken : α → β → Prop} {made : UInt16 → β → Prop}
    {seen keys : List UInt16} {head : UInt16} {i : Nat} {key : UInt16} {value : β}
    (later : FilledAt map taken made (head :: seen) keys i key value) :
    FilledAt map taken made seen (head :: keys) (i + 1) key value := by
  rcases later with ⟨entry, unseen, first, found, fits⟩ | ⟨missing, fits⟩
  · rw [List.mem_cons, not_or] at unseen
    exact .inl ⟨entry, unseen.2, by rw [List.idxOf_cons_ne _ (Ne.symm unseen.1), first], found, fits⟩
  · refine .inr ⟨?_, fits⟩
    by_cases same : head = key
    · right; left
      rw [same, List.idxOf_cons_self]
      omega
    · rw [List.mem_cons] at missing
      rw [List.idxOf_cons_ne _ same]
      rcases missing with (rfl | member) | later | absent
      · exact absurd rfl same
      · exact .inl member
      · exact .inr (.inl (by omega))
      · exact .inr (.inr absent)

theorem Fills.at {map : List (UInt16 × α)} {taken : α → β → Prop} {made : UInt16 → β → Prop}
    {seen keys : List UInt16} {values : List β} (fills : Fills map taken made seen keys values) {i : Nat}
    {key : UInt16} {value : β} (listed : keys[i]? = some key) (placed : values[i]? = some value) :
    FilledAt map taken made seen keys i key value := by
  induction fills generalizing i with
  | nil seen => cases listed
  | taken fresh known fits rest ih =>
    cases i with
    | zero =>
      cases listed
      cases placed
      exact .inl ⟨_, fresh, List.idxOf_cons_self, known, fits⟩
    | succ i => exact (ih listed placed).cons
  | made missing fits rest ih =>
    cases i with
    | zero =>
      cases listed
      cases placed
      rcases missing with member | absent
      · exact .inr ⟨.inl member, fits⟩
      · exact .inr ⟨.inr (.inr absent), fits⟩
    | succ i => exact (ih listed placed).cons

theorem forall₂_mem_left {R : α → β → Prop} {as : List α} {bs : List β} (related : List.Forall₂ R as bs) {a : α}
    (member : a ∈ as) : ∃ b ∈ bs, R a b := by
  induction related with
  | nil => exact absurd member List.not_mem_nil
  | cons head tail ih =>
    rcases List.mem_cons.mp member with rfl | later
    · exact ⟨_, List.mem_cons_self, head⟩
    · obtain ⟨b, found, same⟩ := ih later
      exact ⟨b, List.mem_cons_of_mem _ found, same⟩

/-! ## Entries -/

/-- One entry for a key, under its key. -/
def Keyed (key : α → UInt16) (map : List (UInt16 × α)) : Prop :=
  (map.map Prod.fst).Nodup ∧ ∀ pair ∈ map, pair.1 = key pair.2

theorem Keyed.lookup {key : α → UInt16} {map : List (UInt16 × α)} (keyed : Keyed key map) {entry : α}
    (member : (key entry, entry) ∈ map) : map.lookup (key entry) = some entry := by
  obtain ⟨front, back, rfl⟩ := List.append_of_mem member
  apply List.lookup_eq_some_iff.mpr
  refine ⟨front, back, rfl, ?_⟩
  intro pair before
  have distinct := keyed.1
  rw [List.map_append, List.map_cons, List.nodup_append] at distinct
  exact bne_iff_ne.mpr (Ne.symm (distinct.2.2 _ (List.mem_map_of_mem before) _ List.mem_cons_self))

theorem mem_of_lookup {key : UInt16} {map : List (UInt16 × α)} {entry : α} (found : map.lookup key = some entry) :
    (key, entry) ∈ map := by
  obtain ⟨front, back, rfl, -⟩ := List.lookup_eq_some_iff.mp found
  exact List.mem_append_right _ List.mem_cons_self

theorem insert_keyed {key : α → UInt16} {map : List (UInt16 × α)} (keyed : Keyed key map) (entry : α) :
    Keyed key ((key entry, entry) :: (removeEntry (key entry) map).2) := by
  constructor
  · rw [List.map_cons, List.nodup_cons]
    refine ⟨by simp [removeEntry], ?_⟩
    exact keyed.1.sublist (List.filter_sublist.map _)
  · intro pair member
    rcases List.mem_cons.mp member with rfl | older
    · rfl
    · exact keyed.2 pair (List.mem_of_mem_filter older)

theorem collectEntries_keyed (key : α → UInt16) (entries : List α) : Keyed key (collectEntries key entries) := by
  have step (entries : List α) (map : List (UInt16 × α)) (keyed : Keyed key map) :
      Keyed key (entries.foldl (fun map entry => (key entry, entry) :: (removeEntry (key entry) map).2) map) := by
    induction entries generalizing map with
    | nil => exact keyed
    | cons entry entries ih => exact ih _ (insert_keyed keyed entry)
  exact step entries [] ⟨List.nodup_nil, nofun⟩

theorem mem_collectEntries (key : α → UInt16) (entries : List α) :
    ∀ pair ∈ collectEntries key entries, pair.2 ∈ entries := by
  have step (entries : List α) (map : List (UInt16 × α)) :
      ∀ pair ∈ entries.foldl (fun map entry => (key entry, entry) :: (removeEntry (key entry) map).2) map,
        pair ∈ map ∨ pair.2 ∈ entries := by
    induction entries generalizing map with
    | nil => exact fun pair member => .inl member
    | cons entry entries ih =>
      intro pair member
      rcases ih _ pair member with before | later
      · rcases List.mem_cons.mp before with rfl | older
        · exact .inr List.mem_cons_self
        · exact .inl (List.mem_of_mem_filter older)
      · exact .inr (List.mem_cons_of_mem _ later)
  intro pair member
  exact (step entries [] pair member).resolve_left List.not_mem_nil

theorem lookup_collectEntries (key : α → UInt16) (entries : List α) (wanted : UInt16) :
    (collectEntries key entries).lookup wanted = none ↔ ∀ entry ∈ entries, key entry ≠ wanted := by
  have step (entries : List α) (map : List (UInt16 × α)) :
      (entries.foldl (fun map entry => (key entry, entry) :: (removeEntry (key entry) map).2) map).lookup wanted =
        none ↔ map.lookup wanted = none ∧ ∀ entry ∈ entries, key entry ≠ wanted := by
    induction entries generalizing map with
    | nil => exact (and_iff_left (List.forall_mem_nil _)).symm
    | cons entry entries ih =>
      rw [List.foldl_cons, ih, List.forall_mem_cons, List.lookup_cons]
      by_cases same : wanted = key entry
      · rw [beq_iff_eq.mpr same]
        exact iff_of_false (fun both => nomatch both.1) (fun both => both.2.1 same.symm)
      · rw [beq_eq_false_iff_ne.mpr same, lookup_removeEntry, if_neg same]
        exact and_congr_right fun _ => (and_iff_right (Ne.symm same)).symm
  exact (step entries []).trans (and_iff_right rfl)

/-- Entries with different keys are all kept. -/
theorem collectEntries_distinct {key : α → UInt16} {entries : List α} (distinct : (entries.map key).Nodup) :
    collectEntries key entries = (entries.map fun entry => (key entry, entry)).reverse := by
  have step (entries : List α) (map : List (UInt16 × α)) (distinct : (entries.map key).Nodup)
      (apart : ∀ entry ∈ entries, ∀ pair ∈ map, pair.1 ≠ key entry) :
      entries.foldl (fun map entry => (key entry, entry) :: (removeEntry (key entry) map).2) map =
        (entries.map fun entry => (key entry, entry)).reverse ++ map := by
    induction entries generalizing map with
    | nil => rfl
    | cons entry entries ih =>
      rw [List.map_cons, List.nodup_cons] at distinct
      have kept : (removeEntry (key entry) map).2 = map :=
        List.filter_eq_self.mpr fun pair member => decide_eq_true (apart entry List.mem_cons_self pair member)
      rw [List.foldl_cons, kept, ih _ distinct.2, List.map_cons, List.reverse_cons, List.append_assoc]
      · rfl
      · intro later member pair before
        rcases List.mem_cons.mp before with rfl | older
        · intro same
          have same : key entry = key later := same
          exact distinct.1 (same ▸ List.mem_map_of_mem member)
        · exact apart later (List.mem_cons_of_mem _ member) pair older
  have whole := step entries [] distinct nofun
  rwa [List.append_nil] at whole

end NoisyShuttle.Tunnel
