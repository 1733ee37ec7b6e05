import NoisyShuttle.Tunnel.Layout
import Mathlib.Data.List.Flatten

/-!
# Key shares and groups

NamedGroups and KeyShare get their GREASE values through one stack. Whichever comes first draws them,
and the other finds there what it needs.
-/

namespace NoisyShuttle.Tunnel

variable {deps : FingerprintDeps} {fp : FingerprintSpec} {addEmpty drop : Bool}

/-! ## The two extensions -/

theorem overwriteGroups_plain (first : Bool) {curves : List UInt16} (st : Rewriting) {curve : UInt16}
    (member : curve ∈ curves) (plain : deps.isGrease curve = false) :
    curve ∈ (overwriteGroups deps first curves st).1 := by
  induction curves generalizing st with
  | nil => exact absurd member List.not_mem_nil
  | cons head curves ih =>
    rcases List.mem_cons.mp member with rfl | later
    · have kept := congrArg Prod.fst (overwriteCurve_plain plain first st)
      exact List.mem_cons.mpr (.inl kept.symm)
    · exact List.mem_cons_of_mem _ (ih _ later)

theorem greaseCurve_first (st : Rewriting) :
    greaseCurve deps true st = (deps.grease st.drawn,
      { st with greaseCurves := deps.grease st.drawn :: st.greaseCurves, drawn := st.drawn + 1 }) := rfl

/-- Groups that come first keep every value they draw. -/
theorem overwriteGroups_first (curves : List UInt16) (st : Rewriting) :
    (∀ value ∈ (overwriteGroups deps true curves st).2.greaseCurves,
        value ∈ (overwriteGroups deps true curves st).1 ∨ value ∈ st.greaseCurves) ∧
      (overwriteGroups deps true curves st).2.greaseCurves.length =
        st.greaseCurves.length + curves.countP deps.isGrease := by
  induction curves generalizing st with
  | nil => exact ⟨fun value member => .inr member, rfl⟩
  | cons curve curves ih =>
    obtain ⟨kept, length⟩ := ih (overwriteCurve deps true curve st).2
    unfold overwriteGroups
    dsimp only
    cases grease : deps.isGrease curve with
    | false =>
      rw [overwriteCurve_plain grease] at kept length ⊢
      refine ⟨fun value member => (kept value member).imp_left (List.mem_cons_of_mem _), ?_⟩
      rw [length, List.countP_cons_of_neg (by simp [grease])]
    | true =>
      rw [overwriteCurve_grease grease, greaseCurve_first] at kept length ⊢
      constructor
      · intro value member
        rcases kept value member with drawn | before
        · exact .inl (List.mem_cons_of_mem _ drawn)
        · rcases List.mem_cons.mp before with rfl | older
          · exact .inl List.mem_cons_self
          · exact .inr older
      · rw [length, List.countP_cons_of_pos grease, List.length_cons]
        omega

/-- Groups that come second take every value, if they have enough places. -/
theorem overwriteGroups_second {curves : List UInt16} {st : Rewriting}
    (enough : st.greaseCurves.length ≤ curves.countP deps.isGrease) :
    ∀ value ∈ st.greaseCurves, value ∈ (overwriteGroups deps false curves st).1 := by
  induction curves generalizing st with
  | nil =>
    intro value member
    rw [List.length_eq_zero_iff.mp (Nat.le_zero.mp enough)] at member
    exact absurd member List.not_mem_nil
  | cons curve curves ih =>
    intro value member
    unfold overwriteGroups
    dsimp only
    cases grease : deps.isGrease curve with
    | false =>
      rw [List.countP_cons_of_neg (by simp [grease])] at enough
      rw [overwriteCurve_plain grease]
      exact List.mem_cons_of_mem _ (ih enough value member)
    | true =>
      rw [List.countP_cons_of_pos grease] at enough
      cases stack : st.greaseCurves with
      | nil =>
        rw [stack] at member
        exact absurd member List.not_mem_nil
      | cons top rest =>
        have same : overwriteCurve deps false curve st = (top, { st with greaseCurves := rest }) := by
          rw [overwriteCurve_grease grease, greaseCurve, if_neg Bool.false_ne_true, stack]
        rw [stack] at enough member
        rw [List.length_cons] at enough
        have fits : rest.length ≤ curves.countP deps.isGrease := by omega
        rw [same]
        rcases List.mem_cons.mp member with rfl | older
        · exact List.mem_cons_self
        · exact List.mem_cons_of_mem _ (ih fits value older)

/-- The entries of the original key share, none of them GREASE. -/
def PlainEntries (deps : FingerprintDeps) (old : List (UInt16 × KeyShareEntry)) : Prop :=
  ∀ pair ∈ old, pair.1 = pair.2.group ∧ deps.isGrease pair.2.group = false

/-- What becomes of one curve of a key share. -/
theorem overwriteKeyShare_cons (first : Bool) (curve : UInt16) (curves : List UInt16)
    {old : List (UInt16 × KeyShareEntry)} (plain : PlainEntries deps old) (st : Rewriting) :
    ∃ entry st', overwriteKeyShare deps first (curve :: curves) old st =
        (entry :: (overwriteKeyShare deps first curves (removeEntry curve old).2 st').1,
          (overwriteKeyShare deps first curves (removeEntry curve old).2 st').2) ∧
      PlainEntries deps (removeEntry curve old).2 ∧
      (entry.group = curve ∧ deps.isGrease curve = false ∧ st' = st ∨
        deps.isGrease curve = true ∧ (entry.group, st') = greaseCurve deps first st) := by
  have smaller : PlainEntries deps (removeEntry curve old).2 :=
    fun pair member => plain pair (List.mem_of_mem_filter member)
  cases found : old.lookup curve with
  | some entry =>
    obtain ⟨same, grease⟩ := plain _ (mem_of_lookup found)
    have same : curve = entry.group := same
    refine ⟨entry, st, ?_, smaller, .inl ⟨same.symm, by rw [same, grease], rfl⟩⟩
    rw [overwriteKeyShare, removeEntry_of_lookup found]
  | none =>
    refine ⟨⟨(overwriteCurve deps first curve st).1, [0x00]⟩, (overwriteCurve deps first curve st).2, ?_, smaller, ?_⟩
    · rw [overwriteKeyShare, removeEntry_of_lookup found]
    · cases grease : deps.isGrease curve with
      | false =>
        rw [overwriteCurve_plain grease]
        exact .inl ⟨rfl, rfl, rfl⟩
      | true =>
        rw [overwriteCurve_grease grease]
        exact .inr ⟨rfl, rfl⟩

/-- A key share that comes first keeps every value it draws. -/
theorem overwriteKeyShare_first {curves : List UInt16} {old : List (UInt16 × KeyShareEntry)}
    (plain : PlainEntries deps old) (st : Rewriting) :
    (∀ entry ∈ (overwriteKeyShare deps true curves old st).1, entry.group ∈ curves ∧ deps.isGrease entry.group = false ∨
        entry.group ∈ (overwriteKeyShare deps true curves old st).2.greaseCurves) ∧
      (∀ value ∈ st.greaseCurves, value ∈ (overwriteKeyShare deps true curves old st).2.greaseCurves) ∧
      (overwriteKeyShare deps true curves old st).2.greaseCurves.length =
        st.greaseCurves.length + curves.countP deps.isGrease := by
  induction curves generalizing old st with
  | nil => exact ⟨nofun, fun value member => member, rfl⟩
  | cons curve curves ih =>
    obtain ⟨entry, st', same, smaller, outcome⟩ := overwriteKeyShare_cons true curve curves plain st
    obtain ⟨entries, kept, length⟩ := ih smaller st'
    rw [same]
    have later : ∀ entry ∈ (overwriteKeyShare deps true curves (removeEntry curve old).2 st').1,
        entry.group ∈ curve :: curves ∧ deps.isGrease entry.group = false ∨
          entry.group ∈ (overwriteKeyShare deps true curves (removeEntry curve old).2 st').2.greaseCurves := by
      intro entry member
      exact (entries entry member).imp_left fun plain => ⟨List.mem_cons_of_mem _ plain.1, plain.2⟩
    rcases outcome with ⟨group, grease, rfl⟩ | ⟨grease, drawn⟩
    · refine ⟨?_, kept, ?_⟩
      · rintro other (_ | ⟨_, member⟩)
        · exact .inl ⟨by rw [group]; exact List.mem_cons_self, by rw [group, grease]⟩
        · exact later other member
      · rw [length, List.countP_cons_of_neg (by simp [grease])]
    · rw [greaseCurve_first] at drawn
      obtain ⟨group, rfl⟩ := Prod.mk.inj drawn
      refine ⟨?_, fun value member => kept value (List.mem_cons_of_mem _ member), ?_⟩
      · rintro other (_ | ⟨_, member⟩)
        · exact .inr (group ▸ kept _ List.mem_cons_self)
        · exact later other member
      · simp only [length, List.countP_cons_of_pos grease, List.length_cons]
        omega

/-- A key share that comes second finds a value for each of its places. -/
theorem overwriteKeyShare_second {curves : List UInt16} {old : List (UInt16 × KeyShareEntry)}
    (plain : PlainEntries deps old) {st : Rewriting} (enough : curves.countP deps.isGrease ≤ st.greaseCurves.length) :
    ∀ entry ∈ (overwriteKeyShare deps false curves old st).1,
      entry.group ∈ curves ∧ deps.isGrease entry.group = false ∨ entry.group ∈ st.greaseCurves := by
  induction curves generalizing old st with
  | nil => exact nofun
  | cons curve curves ih =>
    obtain ⟨entry, st', same, smaller, outcome⟩ := overwriteKeyShare_cons false curve curves plain st
    rw [same]
    rcases outcome with ⟨group, grease, rfl⟩ | ⟨grease, popped⟩
    · rw [List.countP_cons_of_neg (by simp [grease])] at enough
      rintro other (_ | ⟨_, member⟩)
      · exact .inl ⟨by rw [group]; exact List.mem_cons_self, by rw [group, grease]⟩
      · exact (ih smaller enough other member).imp_left fun plain => ⟨List.mem_cons_of_mem _ plain.1, plain.2⟩
    · rw [List.countP_cons_of_pos grease] at enough
      cases stack : st.greaseCurves with
      | nil =>
        rw [stack, List.length_nil] at enough
        omega
      | cons top rest =>
        rw [greaseCurve, if_neg Bool.false_ne_true, stack] at popped
        obtain ⟨group, rfl⟩ := Prod.mk.inj popped
        rw [stack, List.length_cons] at enough
        have fits : curves.countP deps.isGrease ≤ rest.length := by omega
        rintro other (_ | ⟨_, member⟩)
        · exact .inr (by rw [group]; exact List.mem_cons_self)
        · rcases ih smaller fits other member with plain | older
          · exact .inl ⟨List.mem_cons_of_mem _ plain.1, plain.2⟩
          · exact .inr (List.mem_cons_of_mem _ older)

/-! ## The walk over the extensions -/

namespace ClientExtension

def groups : ClientExtension → List (List UInt16)
  | .namedGroups groups => [groups]
  | _ => []

def shares : ClientExtension → List (List KeyShareEntry)
  | .keyShare entries => [entries]
  | _ => []

end ClientExtension

theorem mem_flatMap_of_only {β : Type} {f : ClientExtension → List β} {make : β → ClientExtension}
    (only : ∀ extension value, value ∈ f extension ↔ extension = make value) {extensions : List ClientExtension}
    {value : β} : value ∈ extensions.flatMap f ↔ make value ∈ extensions := by
  rw [List.mem_flatMap]
  constructor
  · rintro ⟨extension, member, has⟩
    rwa [← (only extension value).mp has]
  · exact fun member => ⟨_, member, (only _ value).mpr rfl⟩

theorem mem_groups {groups : List UInt16} {extensions : List ClientExtension} :
    groups ∈ extensions.flatMap (·.groups) ↔ .namedGroups groups ∈ extensions := by
  apply mem_flatMap_of_only
  intro extension value
  cases extension <;> simp [ClientExtension.groups, eq_comm]

theorem mem_shares {entries : List KeyShareEntry} {extensions : List ClientExtension} :
    entries ∈ extensions.flatMap (·.shares) ↔ .keyShare entries ∈ extensions := by
  apply mem_flatMap_of_only
  intro extension value
  cases extension <;> simp [ClientExtension.shares, eq_comm]

/-- What the walk has put out, of the curves of the JA3 and of the key share, with the values kept for the
extension that is still to come. -/
inductive Stage (deps : FingerprintDeps) (curves keyshares : List UInt16) :
    List (List UInt16) → List (List KeyShareEntry) → List UInt16 → Prop
  | start : Stage deps curves keyshares [] [] []
  | groups {groups kept : List UInt16} (plain : ∀ curve ∈ curves, deps.isGrease curve = false → curve ∈ groups)
      (within : ∀ value ∈ kept, value ∈ groups) (enough : curves.countP deps.isGrease ≤ kept.length) :
      Stage deps curves keyshares [groups] [] kept
  | shares {entries : List KeyShareEntry} {kept : List UInt16}
      (from_ : ∀ entry ∈ entries, entry.group ∈ keyshares ∧ deps.isGrease entry.group = false ∨ entry.group ∈ kept)
      (few : kept.length ≤ keyshares.countP deps.isGrease) : Stage deps curves keyshares [] [entries] kept
  | both {groups kept : List UInt16} {entries : List KeyShareEntry} (within : ∀ entry ∈ entries, entry.group ∈ groups) :
      Stage deps curves keyshares [groups] [entries] kept

/-- The spec of the fingerprint offers a group for every key share. -/
structure Offers (deps : FingerprintDeps) (fp : FingerprintSpec) (ja3 : Ja3) (keyshares : List UInt16) : Prop where
  given : fp.ja3 = some ja3
  shared : fp.keyshareCurves = some keyshares
  plain : ∀ curve ∈ keyshares, deps.isGrease curve = false → curve ∈ ja3.curves
  grease : keyshares.countP deps.isGrease ≤ ja3.curves.countP deps.isGrease

variable {ja3 : Ja3} {keyshares : List UInt16}

theorem overwriteGroups_stage (offers : Offers deps fp ja3 keyshares) {st : Rewriting}
    {before : List (List KeyShareEntry)} (stage : Stage deps ja3.curves keyshares [] before st.greaseCurves) :
    Stage deps ja3.curves keyshares [(overwriteGroups deps st.greaseCurves.isEmpty ja3.curves st).1] before
      (overwriteGroups deps st.greaseCurves.isEmpty ja3.curves st).2.greaseCurves := by
  have plain (curve : UInt16) (member : curve ∈ ja3.curves) (plain : deps.isGrease curve = false) :
      curve ∈ (overwriteGroups deps st.greaseCurves.isEmpty ja3.curves st).1 :=
    overwriteGroups_plain _ st member plain
  generalize stack : st.greaseCurves = kept at stage plain ⊢
  cases stage with
  | start =>
    obtain ⟨drawn, length⟩ := @overwriteGroups_first deps ja3.curves st
    rw [stack] at drawn length
    refine .groups plain ?_ ?_
    · exact fun value member => (drawn value member).resolve_right List.not_mem_nil
    · exact Nat.le_of_eq (length.trans (Nat.zero_add _)).symm
  | shares entries few =>
    have taken : ∀ value ∈ kept, value ∈ (overwriteGroups deps kept.isEmpty ja3.curves st).1 := by
      cases kept with
      | nil => exact nofun
      | cons top rest =>
        have enough := Nat.le_trans few offers.grease
        rw [← stack] at enough
        have taken := overwriteGroups_second enough
        rw [stack] at taken
        exact taken
    refine .both ?_
    intro entry member
    rcases entries entry member with ⟨listed, grease⟩ | older
    · exact plain _ (offers.plain _ listed grease) grease
    · exact taken _ older

theorem overwriteKeyShare_stage (offers : Offers deps fp ja3 keyshares) {old : List (UInt16 × KeyShareEntry)}
    (entries : PlainEntries deps old) {st : Rewriting} {before : List (List UInt16)}
    (stage : Stage deps ja3.curves keyshares before [] st.greaseCurves) :
    Stage deps ja3.curves keyshares before [(overwriteKeyShare deps st.greaseCurves.isEmpty keyshares old st).1]
      (overwriteKeyShare deps st.greaseCurves.isEmpty keyshares old st).2.greaseCurves := by
  generalize stack : st.greaseCurves = kept at stage ⊢
  cases stage with
  | start =>
    obtain ⟨drawn, -, length⟩ := @overwriteKeyShare_first deps keyshares old entries st
    rw [stack, List.length_nil, Nat.zero_add] at length
    exact .shares drawn (Nat.le_of_eq length)
  | @groups groups _ plain within enough =>
    refine .both ?_
    have made : ∀ entry ∈ (overwriteKeyShare deps kept.isEmpty keyshares old st).1,
        entry.group ∈ keyshares ∧ deps.isGrease entry.group = false ∨ entry.group ∈ kept := by
      cases kept with
      | nil =>
        -- no GREASE among the groups, so none is drawn here either
        obtain ⟨drawn, -, length⟩ := @overwriteKeyShare_first deps keyshares old entries st
        have none : keyshares.countP deps.isGrease = 0 := Nat.le_zero.mp (Nat.le_trans offers.grease enough)
        rw [stack, none] at length
        rw [List.length_eq_zero_iff.mp length] at drawn
        exact drawn
      | cons top rest =>
        have fits := Nat.le_trans offers.grease enough
        rw [← stack] at fits ⊢
        have popped := overwriteKeyShare_second entries fits
        rw [stack] at popped ⊢
        exact popped
    intro entry member
    rcases made entry member with ⟨listed, grease⟩ | older
    · exact plain _ (offers.plain _ listed grease) grease
    · exact within _ older

theorem rewriteExtension_stage (lawful : deps.Lawful) (offers : Offers deps fp ja3 keyshares)
    {extension : ClientExtension}
    (entries : ∀ entries ∈ extension.shares, ∀ entry ∈ entries, deps.isGrease entry.group = false)
    {groups : List (List UInt16)} {shares : List (List KeyShareEntry)} {st : Rewriting}
    (oneGroups : groups.length + extension.groups.length ≤ 1) (oneShare : shares.length + extension.shares.length ≤ 1)
    (stage : Stage deps ja3.curves keyshares groups shares st.greaseCurves) :
    ∃ new st', rewriteExtension deps fp st extension = (new, st') ∧ new.groups.length = extension.groups.length ∧
      new.shares.length = extension.shares.length ∧
      Stage deps ja3.curves keyshares (groups ++ new.groups) (shares ++ new.shares) st'.greaseCurves := by
  have same {new : ClientExtension} {st' : Rewriting} (noGroups : new.groups = []) (noShares : new.shares = [])
      (kept : st'.greaseCurves = st.greaseCurves) :
      Stage deps ja3.curves keyshares (groups ++ new.groups) (shares ++ new.shares) st'.greaseCurves := by
    rwa [noGroups, noShares, List.append_nil, List.append_nil, kept]
  cases extension with
  | namedGroups old =>
    have none : groups = [] := List.length_eq_zero_iff.mp (Nat.le_zero.mp (Nat.le_of_succ_le_succ oneGroups))
    subst none
    refine ⟨.namedGroups (overwriteGroups deps st.greaseCurves.isEmpty ja3.curves st).1, _,
      by rw [rewriteExtension, offers.given], rfl, rfl, ?_⟩
    show Stage deps ja3.curves keyshares [_] (shares ++ []) _
    rw [List.append_nil]
    exact overwriteGroups_stage offers stage
  | keyShare old =>
    have none : shares = [] := List.length_eq_zero_iff.mp (Nat.le_zero.mp (Nat.le_of_succ_le_succ oneShare))
    subst none
    have plain : PlainEntries deps (collectEntries (·.group) old) := by
      intro pair member
      refine ⟨(collectEntries_keyed _ old).2 pair member, ?_⟩
      exact entries old (List.mem_singleton.mpr rfl) _ (mem_collectEntries _ old pair member)
    refine ⟨.keyShare (overwriteKeyShare deps st.greaseCurves.isEmpty keyshares (collectEntries (·.group) old) st).1, _,
      by rw [rewriteExtension, offers.shared], rfl, rfl, ?_⟩
    show Stage deps ja3.curves keyshares (groups ++ []) [_] _
    rw [List.append_nil]
    exact overwriteKeyShare_stage offers plain stage
  | supportedVersions vers =>
    cases given : fp.supportedVersions with
    | none => exact ⟨.supportedVersions vers, st, by rw [rewriteExtension, given], rfl, rfl, same rfl rfl rfl⟩
    | some vers =>
      exact ⟨.supportedVersions (tryRegreaseAll deps vers st).1, _, by rw [rewriteExtension, given], rfl, rfl,
        same rfl rfl (tryRegreaseAll_spec lawful vers st).2⟩
  | signatureAlgorithms algos =>
    cases given : fp.signatureAlgos with
    | none => exact ⟨.signatureAlgorithms algos, st, by rw [rewriteExtension, given], rfl, rfl, same rfl rfl rfl⟩
    | some algos =>
      exact ⟨.signatureAlgorithms (tryRegreaseAll deps algos st).1, _, by rw [rewriteExtension, given], rfl, rfl,
        same rfl rfl (tryRegreaseAll_spec lawful algos st).2⟩
  | unknown typ payload =>
    by_cases padding : typ = extensionPadding
    · subst padding
      exact ⟨_, _, rewriteExtension_padding st payload, rfl, rfl, same rfl rfl rfl⟩
    · exact ⟨_, _, rewriteExtension_unknown padding st payload, rfl, rfl, same rfl rfl rfl⟩
  | ecPointFormats formats => exact ⟨_, _, rfl, rfl, rfl, same rfl rfl rfl⟩
  | protocols alpn => exact ⟨_, _, rfl, rfl, rfl, same rfl rfl rfl⟩
  | typed typ body => exact ⟨_, _, rfl, rfl, rfl, same rfl rfl rfl⟩

theorem rewriteExtensions_stage (lawful : deps.Lawful) (offers : Offers deps fp ja3 keyshares)
    {extensions : List ClientExtension}
    (entries : ∀ entries ∈ extensions.flatMap (·.shares), ∀ entry ∈ entries, deps.isGrease entry.group = false)
    {groups : List (List UInt16)} {shares : List (List KeyShareEntry)} {st : Rewriting}
    (oneGroups : groups.length + (extensions.flatMap (·.groups)).length ≤ 1)
    (oneShare : shares.length + (extensions.flatMap (·.shares)).length ≤ 1)
    (stage : Stage deps ja3.curves keyshares groups shares st.greaseCurves) :
    ∃ kept, Stage deps ja3.curves keyshares
      (groups ++ (rewriteExtensions deps fp extensions st).1.flatMap (·.groups))
      (shares ++ (rewriteExtensions deps fp extensions st).1.flatMap (·.shares)) kept := by
  induction extensions generalizing groups shares st with
  | nil =>
    refine ⟨st.greaseCurves, ?_⟩
    rwa [rewriteExtensions, List.flatMap_nil, List.flatMap_nil, List.append_nil, List.append_nil]
  | cons extension extensions ih =>
    rw [List.flatMap_cons] at entries
    rw [List.flatMap_cons, List.length_append] at oneGroups oneShare
    obtain ⟨new, st', rewritten, sameGroups, sameShares, next⟩ :=
      rewriteExtension_stage lawful offers (fun each member => entries each (List.mem_append_left _ member))
        (by omega) (by omega) stage
    obtain ⟨kept, final⟩ := ih (fun each member => entries each (List.mem_append_right _ member))
      (by rw [List.length_append]; omega) (by rw [List.length_append]; omega) next
    refine ⟨kept, ?_⟩
    rw [rewriteExtensions, rewritten]
    simpa only [List.flatMap_cons, List.append_assoc] using final

/-! ## One of each -/

section

variable {β : Type}

/-- What only an extension of one type has, and never twice. -/
structure Carried (typ : UInt16) (f : ClientExtension → List β) : Prop where
  unknown : ∀ typ payload, f (.unknown typ payload) = []
  getType : ∀ extension, f extension ≠ [] → extension.getType = typ
  single : ∀ extension, (f extension).length ≤ 1

variable {typ : UInt16} {f : ClientExtension → List β}

theorem groups_carried : Carried 0x000a ClientExtension.groups where
  unknown typ payload := rfl
  getType extension some := by cases extension <;> first | rfl | exact absurd rfl some
  single extension := by cases extension <;> first | exact Nat.le_refl 1 | exact Nat.zero_le 1

theorem shares_carried : Carried 0x0033 ClientExtension.shares where
  unknown typ payload := rfl
  getType extension some := by cases extension <;> first | rfl | exact absurd rfl some
  single extension := by cases extension <;> first | exact Nat.le_refl 1 | exact Nat.zero_le 1

theorem removeEntry_flatMap (f : ClientExtension → List β) (typ : UInt16) (old : List (UInt16 × ClientExtension)) :
    ((removeEntry typ old).2.flatMap (f ·.2)).length + ((old.lookup typ).toList.flatMap f).length ≤
      (old.flatMap (f ·.2)).length := by
  induction old with
  | nil => exact Nat.le_refl _
  | cons pair old ih =>
    obtain ⟨key, extension⟩ := pair
    unfold removeEntry at ih ⊢
    by_cases same : typ = key
    · subst same
      have fewer : ((old.filter fun pair => !decide (pair.1 = typ)).flatMap (f ·.2)).length ≤
          (old.flatMap (f ·.2)).length := (List.filter_sublist.flatMap _).length_le
      simpa [Nat.add_comm] using fewer
    · simp [List.lookup_cons, beq_eq_false_iff_ne.mpr same, Ne.symm same] at ih ⊢
      omega

/-- Nothing of the old extensions comes twice. -/
theorem orderExtensions_flatMap (carried : Carried typ f) {types : List UInt16}
    {old left : List (UInt16 × ClientExtension)} {new : List ClientExtension} {pad : Bool}
    (h : orderExtensions addEmpty types old = .ok (new, left, pad)) :
    (new.flatMap f).length + (left.flatMap (f ·.2)).length ≤ (old.flatMap (f ·.2)).length := by
  induction types generalizing old new left pad with
  | nil =>
    cases h
    exact Nat.le_of_eq (Nat.zero_add _)
  | cons typ types ih =>
    obtain ⟨later, pad, rest, place⟩ := orderExtensions_cons h
    have fewer := ih rest
    have bound := removeEntry_flatMap f typ old
    rcases place with ⟨extension, found, rfl⟩ | ⟨absent, ⟨-, dummy, ⟨payload, -, rfl⟩, rfl⟩ | ⟨-, rfl⟩⟩
    · rw [found, Option.toList_some, List.flatMap_singleton] at bound
      rw [List.flatMap_cons, List.length_append]
      omega
    · rw [List.flatMap_cons, carried.unknown, List.nil_append]
      omega
    · omega

theorem Keyed.flatMap_le (carried : Carried typ f) {map : List (UInt16 × ClientExtension)}
    (keyed : Keyed (·.getType) map) : (map.flatMap (f ·.2)).length ≤ 1 := by
  induction map with
  | nil => exact Nat.zero_le 1
  | cons pair map ih =>
    obtain ⟨distinct, types⟩ := keyed
    rw [List.map_cons, List.nodup_cons] at distinct
    have rest : Keyed (·.getType) map := ⟨distinct.2, fun pair member => types pair (List.mem_cons_of_mem _ member)⟩
    rw [List.flatMap_cons]
    by_cases empty : f pair.2 = []
    · rw [empty]
      exact ih rest
    · -- no other entry has this type
      have others : map.flatMap (f ·.2) = [] := by
        apply List.flatMap_eq_nil_iff.mpr
        intro other member
        by_contra some
        apply distinct.1
        have same : pair.1 = other.1 :=
          calc pair.1 = pair.2.getType := types pair List.mem_cons_self
            _ = typ := carried.getType _ empty
            _ = other.2.getType := (carried.getType _ some).symm
            _ = other.1 := (types other (List.mem_cons_of_mem _ member)).symm
        rw [same]
        exact List.mem_map_of_mem member
      rw [others, List.append_nil]
      exact carried.single _

theorem padExtensions_flatMap (carried : Carried typ f) (n : Nat) (extensions : List ClientExtension) :
    (padExtensions n extensions).flatMap f = extensions.flatMap f := by
  rw [List.flatMap_def, List.flatMap_def, padExtensions_map]
  intro payload new
  rw [carried.unknown, carried.unknown]

theorem matchExtensions_flatMap (lawful : deps.Lawful) (carried : Carried typ f)
    {extensions ordered : List ClientExtension} {pad : Bool}
    (h : matchExtensions deps addEmpty drop ja3 extensions = .ok (ordered, pad)) :
    (ordered.flatMap f).length ≤ 1 := by
  obtain ⟨placed, left, rest, rfl, order, dropped, kept⟩ := matchExtensions_ok lawful h
  have bound := orderExtensions_flatMap carried order
  have single := (collectEntries_keyed (·.getType) extensions).flatMap_le carried
  have remaining : (rest.flatMap f).length ≤ (left.flatMap (f ·.2)).length := by
    cases drop with
    | true =>
      rw [dropped rfl]
      exact Nat.zero_le _
    | false =>
      have same := ((kept rfl).flatMap_right f).length_eq
      rw [List.flatMap_map] at same
      exact Nat.le_of_eq same
  rw [List.flatMap_append, List.length_append]
  omega

end

/-! ## The overwritten message -/

theorem orderExtensions_mem {types : List UInt16} {old left : List (UInt16 × ClientExtension)}
    {new : List ClientExtension} {pad : Bool} (h : orderExtensions addEmpty types old = .ok (new, left, pad)) :
    (∀ extension ∈ new, extension ∈ old.map Prod.snd ∨ ∃ typ payload, extension = .unknown typ payload) ∧
      ∀ pair ∈ left, pair ∈ old := by
  induction types generalizing old new left pad with
  | nil =>
    cases h
    exact ⟨nofun, fun pair member => member⟩
  | cons typ types ih =>
    obtain ⟨later, pad, rest, place⟩ := orderExtensions_cons h
    obtain ⟨placed, kept⟩ := ih rest
    have placed : ∀ extension ∈ later,
        extension ∈ old.map Prod.snd ∨ ∃ typ payload, extension = .unknown typ payload := by
      intro extension member
      exact (placed extension member).imp_left fun old => (List.filter_sublist.map Prod.snd).subset old
    refine ⟨?_, fun pair member => List.mem_of_mem_filter (kept pair member)⟩
    rcases place with ⟨extension, found, rfl⟩ | ⟨absent, ⟨-, dummy, ⟨payload, -, rfl⟩, rfl⟩ | ⟨-, rfl⟩⟩
    · rintro other (_ | ⟨_, member⟩)
      · exact .inl (List.mem_map.mpr ⟨_, mem_of_lookup found, rfl⟩)
      · exact placed other member
    · rintro other (_ | ⟨_, member⟩)
      · exact .inr ⟨_, _, rfl⟩
      · exact placed other member
    · exact placed

theorem matchExtensions_mem (lawful : deps.Lawful) {extensions ordered : List ClientExtension} {pad : Bool}
    (h : matchExtensions deps addEmpty drop ja3 extensions = .ok (ordered, pad)) {extension : ClientExtension}
    (member : extension ∈ ordered) : extension ∈ extensions ∨ ∃ typ payload, extension = .unknown typ payload := by
  obtain ⟨placed, left, rest, rfl, order, dropped, kept⟩ := matchExtensions_ok lawful h
  obtain ⟨fromOld, fromLeft⟩ := orderExtensions_mem order
  have original : ∀ extension ∈ (collectEntries (·.getType) extensions).map Prod.snd, extension ∈ extensions := by
    intro extension member
    obtain ⟨pair, known, rfl⟩ := List.mem_map.mp member
    exact mem_collectEntries _ _ pair known
  rcases List.mem_append.mp member with front | back
  · exact (fromOld extension front).imp_left (original extension)
  · cases drop with
    | true =>
      rw [dropped rfl] at back
      exact absurd back List.not_mem_nil
    | false =>
      obtain ⟨pair, remaining, rfl⟩ := List.mem_map.mp ((kept rfl).mem_iff.mp back)
      exact .inl (original _ (List.mem_map_of_mem (fromLeft pair remaining)))

/-- An extension that the JA3 lists is kept. -/
theorem matchExtensions_keeps (lawful : deps.Lawful) {extensions ordered : List ClientExtension} {pad : Bool}
    (distinct : (extensions.map (·.getType)).Nodup)
    (h : matchExtensions deps addEmpty drop ja3 extensions = .ok (ordered, pad)) {extension : ClientExtension}
    (member : extension ∈ extensions) (plain : deps.isGrease extension.getType = false)
    (listed : extension.getType ∈ ja3.extensions) : extension ∈ ordered := by
  obtain ⟨placed, left, rest, rfl, order, -, -⟩ := matchExtensions_ok lawful h
  obtain ⟨typ, still, same⟩ := forall₂_mem_left (lawful.regreased ja3.extensions) listed
  rw [Regreased, plain, if_neg Bool.false_ne_true] at same
  subst same
  exact List.mem_append_left _ (orderExtensions_keeps order still (lookup_original distinct member))

theorem Rewritten.groups {old : List UInt16} {new : ClientExtension}
    (rewritten : Rewritten deps fp (.namedGroups old) new) : ∃ groups, new = .namedGroups groups := by
  cases new with
  | namedGroups groups => exact ⟨groups, rfl⟩
  | _ => exact rewritten.elim

theorem Rewritten.shares {old : List KeyShareEntry} {new : ClientExtension}
    (rewritten : Rewritten deps fp (.keyShare old) new) : ∃ entries, new = .keyShare entries := by
  cases new with
  | keyShare entries => exact ⟨entries, rfl⟩
  | _ => exact rewritten.elim

/-- A key share has an entry for each of its curves, in their order. -/
theorem Rewritten.follows (offers : Offers deps fp ja3 keyshares) {old : ClientExtension} {entries : List KeyShareEntry}
    (rewritten : Rewritten deps fp old (.keyShare entries)) :
    List.Forall₂ (Regreased deps) keyshares (entries.map (·.group)) := by
  cases old with
  | keyShare before =>
    unfold Rewritten at rewritten
    rw [offers.shared] at rewritten
    apply List.forall₂_map_right_iff.mpr
    apply Fills.forall₂ rewritten
    · rintro curve entry _ found rfl
      have same : curve = entry.group := (collectEntries_keyed _ before).2 _ (mem_of_lookup found)
      unfold Regreased
      split
      · next grease => rwa [← same]
      · exact same.symm
    · exact fun curve entry made => made.1
  | typed typ body => cases rewritten
  | _ => exact rewritten.elim

theorem Stage.within {curves kept : List UInt16} {groups : List (List UInt16)} {shares : List (List KeyShareEntry)}
    (stage : Stage deps curves keyshares groups shares kept) {offered : List UInt16} {entries : List KeyShareEntry}
    (first : offered ∈ groups) (second : entries ∈ shares) : ∀ entry ∈ entries, entry.group ∈ offered := by
  cases stage with
  | start => exact absurd first List.not_mem_nil
  | groups => exact absurd second List.not_mem_nil
  | shares => exact absurd first List.not_mem_nil
  | both within =>
    cases List.mem_singleton.mp first
    cases List.mem_singleton.mp second
    exact within

theorem matchExtensions_stage (lawful : deps.Lawful) (offers : Offers deps fp ja3 keyshares)
    {original ordered : List ClientExtension} {pad : Bool}
    (plain : ∀ entries, .keyShare entries ∈ original → ∀ entry ∈ entries, deps.isGrease entry.group = false)
    (matched : matchExtensions deps addEmpty drop ja3 original = .ok (ordered, pad)) (asked : Bool) :
    ∃ kept, Stage deps ja3.curves keyshares
      ((rewriteExtensions deps fp ordered ⟨[], 0, asked⟩).1.flatMap (·.groups))
      ((rewriteExtensions deps fp ordered ⟨[], 0, asked⟩).1.flatMap (·.shares)) kept := by
  have entries : ∀ entries ∈ ordered.flatMap (·.shares), ∀ entry ∈ entries, deps.isGrease entry.group = false := by
    intro entries member
    rcases matchExtensions_mem lawful matched (mem_shares.mp member) with original | ⟨typ, payload, other⟩
    · exact plain entries original
    · cases other
  have oneGroups := matchExtensions_flatMap lawful groups_carried matched
  have oneShare := matchExtensions_flatMap lawful shares_carried matched
  have fresh : Stage deps ja3.curves keyshares [] [] (Rewriting.mk [] 0 asked).greaseCurves := .start
  exact rewriteExtensions_stage lawful offers entries (by rwa [List.length_nil, Nat.zero_add])
    (by rwa [List.length_nil, Nat.zero_add]) fresh

/-- Every key share is for a group the message offers. -/
theorem key_shares_within_groups (deps : FingerprintDeps) (lawful : deps.Lawful) (fp : FingerprintSpec) (ja3 : Ja3)
    (keyshares : List UInt16) (offers : Offers deps fp ja3 keyshares) (addEmpty drop : Bool) (version : UInt16)
    (hello : ClientHello) (encoded : Bytes)
    (plain : ∀ entries, .keyShare entries ∈ hello.extensions → ∀ entry ∈ entries, deps.isGrease entry.group = false)
    (new : ClientMessage) (allowed : List UInt16)
    (written : overwriteClientHelloWithFingerprintSpec deps fp addEmpty drop ⟨version, .clientHello hello encoded⟩ =
      .ok (new, allowed)) :
    ∃ after, new.payload = .clientHello after (deps.getEncoding after) ∧
      (∀ groups entries, .namedGroups groups ∈ after.extensions → .keyShare entries ∈ after.extensions →
        (∀ entry ∈ entries, entry.group ∈ groups) ∧
          List.Forall₂ (Regreased deps) keyshares (entries.map (·.group))) ∧
      ((hello.extensions.map (·.getType)).Nodup → 0x000a ∈ ja3.extensions → 0x0033 ∈ ja3.extensions →
        (∃ groups, .namedGroups groups ∈ hello.extensions) → (∃ entries, .keyShare entries ∈ hello.extensions) →
        ∃ groups entries, .namedGroups groups ∈ after.extensions ∧ .keyShare entries ∈ after.extensions) := by
  obtain ⟨after, overwritten, payload⟩ := overwriteClientHello_ok written
  obtain ⟨ordered, pad, extensions, st, order, rewritten, rfl⟩ := overwriteHello_ok overwritten
  refine ⟨_, payload, ?_⟩
  unfold Ordered at order
  rw [offers.given] at order
  obtain ⟨padded, matched⟩ := order
  have values := padExtensions_rewritten (missingPadding deps st.pad (rewrittenHello fp hello extensions))
    (rewriteExtensions_fresh lawful rewritten)
  constructor
  · intro groups entries offered shared
    obtain ⟨kept, stage⟩ := matchExtensions_stage lawful offers plain matched pad
    rw [rewritten] at stage
    obtain ⟨old, -, value⟩ := forall₂_mem_left values.flip shared
    refine ⟨stage.within ?_ ?_, Rewritten.follows offers value⟩
    · rw [← padExtensions_flatMap groups_carried]
      exact mem_groups.mpr offered
    · rw [← padExtensions_flatMap shares_carried]
      exact mem_shares.mpr shared
  · rintro distinct listedGroups listedShares ⟨oldGroups, hasGroups⟩ ⟨oldShares, hasShares⟩
    have keptGroups := matchExtensions_keeps lawful distinct matched hasGroups
      (lawful.isGrease_eq_false 0x000a (by decide)) listedGroups
    have keptShares := matchExtensions_keeps lawful distinct matched hasShares
      (lawful.isGrease_eq_false 0x0033 (by decide)) listedShares
    obtain ⟨newGroups, memberGroups, valueGroups⟩ := forall₂_mem_left values keptGroups
    obtain ⟨newShares, memberShares, valueShares⟩ := forall₂_mem_left values keptShares
    obtain ⟨groups, rfl⟩ := valueGroups.groups
    obtain ⟨entries, rfl⟩ := valueShares.shares
    exact ⟨groups, entries, memberGroups, memberShares⟩

/-- GREASE in both, and the key share before the groups. -/
theorem key_shares_within_groups_grease :
    ∃ new allowed, overwriteClientHelloWithFingerprintSpec plainGrease paddedSpec true true
        ⟨0x0301, .clientHello rustlsHello []⟩ = .ok (new, allowed) ∧
      ∃ after groups entries, new.payload = .clientHello after (plainGrease.getEncoding after) ∧
        .namedGroups groups ∈ after.extensions ∧ .keyShare entries ∈ after.extensions ∧
        ∀ entry ∈ entries, entry.group ∈ groups := by
  refine ⟨_, _, rfl, ?_⟩
  have offers : Offers plainGrease paddedSpec
      ⟨0x0303, [0x0a0a, 0x1301], [0x0a0a, 0x0033, 0x000a, 0x0015, 0x0033], [0x0a0a, 0x001d], [0x00]⟩ [0x0a0a, 0x001d] :=
    ⟨rfl, rfl, fun curve member _ => member, Nat.le_refl _⟩
  have plain : ∀ entries, .keyShare entries ∈ rustlsHello.extensions →
      ∀ entry ∈ entries, plainGrease.isGrease entry.group = false := by
    intro entries member
    have only : entries = [⟨0x001d, [0x01, 0x02]⟩] := by simpa [rustlsHello] using member
    rw [only]
    decide
  obtain ⟨after, payload, within, present⟩ :=
    key_shares_within_groups plainGrease plainGrease_lawful paddedSpec _ _ offers true true 0x0301
      rustlsHello [] plain _ _ rfl
  obtain ⟨groups, entries, offered, shared⟩ := present (by decide) (by decide) (by decide)
    ⟨[0x001d, 0x0017], by decide⟩ ⟨[⟨0x001d, [0x01, 0x02]⟩], by decide⟩
  exact ⟨after, groups, entries, payload, offered, shared, (within groups entries offered shared).1⟩

end NoisyShuttle.Tunnel
