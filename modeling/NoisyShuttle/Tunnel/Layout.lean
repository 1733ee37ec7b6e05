import NoisyShuttle.Tunnel.Entries
import Mathlib.Data.List.Perm.Basic

/-!
# The layout of an overwritten ClientHello

Where the extensions of the original message end up, what stands in the places of the others, and what
becomes of their values.
-/

namespace NoisyShuttle.Tunnel

section

variable (deps : FingerprintDeps)

/-- `new` is `old`, or a GREASE value for a GREASE value. -/
def Regreased (old new : UInt16) : Prop := if deps.isGrease old then deps.isGrease new = true else new = old

/-- What is assumed of the ja3 library, and of a `HashMap` that is drained. -/
structure FingerprintDeps.Lawful : Prop where
  shape : ∀ value, deps.isGrease value = true → value &&& 0x0f0f = 0x0a0a
  drawn : ∀ n, deps.isGrease (deps.grease n) = true
  regreased : ∀ types, List.Forall₂ (Regreased deps) types (deps.regreased types)
  drained : ∀ extensions, (deps.shuffled extensions).Perm extensions

end

/-! ## The order of the extensions -/

variable {deps : FingerprintDeps} {fp : FingerprintSpec} {addEmpty drop : Bool}

theorem FingerprintDeps.Lawful.isGrease_eq_false (lawful : deps.Lawful) (typ : UInt16)
    (other : typ &&& 0x0f0f ≠ 0x0a0a) : deps.isGrease typ = false :=
  Bool.eq_false_iff.mpr fun grease => other (lawful.shape typ grease)

theorem map_eq_ok {α β : Type} {f : α → β} {x : Except String α} {y : β} (h : x.map f = .ok y) :
    ∃ a, x = .ok a ∧ y = f a := by
  cases x with
  | error panic => cases h
  | ok a => exact ⟨a, rfl, (Except.ok.inj h).symm⟩

def Dummy (typ : UInt16) (extension : ClientExtension) : Prop :=
  ∃ payload, dummyPayload typ = .ok payload ∧ extension = .unknown typ payload

/-- What stands in the place of one type. -/
theorem orderExtensions_cons {typ : UInt16} {types : List UInt16} {old left : List (UInt16 × ClientExtension)}
    {new : List ClientExtension} {pad : Bool} (h : orderExtensions addEmpty (typ :: types) old = .ok (new, left, pad)) :
    ∃ later pad, orderExtensions addEmpty types (removeEntry typ old).2 = .ok (later, left, pad) ∧
      ((∃ extension, old.lookup typ = some extension ∧ new = extension :: later) ∨
        old.lookup typ = none ∧
          ((addEmpty = true ∧ ∃ dummy, Dummy typ dummy ∧ new = dummy :: later) ∨ addEmpty = false ∧ new = later)) := by
  unfold orderExtensions at h
  cases found : old.lookup typ with
  | some extension =>
    rw [removeEntry_of_lookup found] at h
    obtain ⟨⟨later, remaining, padded⟩, rest, same⟩ := map_eq_ok h
    cases same
    exact ⟨later, _, rest, .inl ⟨extension, rfl, rfl⟩⟩
  | none =>
    rw [removeEntry_of_lookup found] at h
    cases addEmpty with
    | false => exact ⟨new, pad, h, .inr ⟨rfl, .inr ⟨rfl, rfl⟩⟩⟩
    | true =>
      cases dummy : dummyPayload typ with
      | error panic =>
        rw [dummy] at h
        cases h
      | ok payload =>
        rw [dummy] at h
        obtain ⟨⟨later, remaining, padded⟩, rest, same⟩ := map_eq_ok h
        cases same
        exact ⟨later, _, rest, .inr ⟨rfl, .inl ⟨rfl, _, ⟨payload, dummy, rfl⟩, rfl⟩⟩⟩

theorem orderExtensions_fills {types seen : List UInt16} {map left : List (UInt16 × ClientExtension)}
    {new : List ClientExtension} {pad : Bool}
    (h : orderExtensions true types (without seen map) = .ok (new, left, pad)) :
    Fills map Eq Dummy seen types new ∧ left = without (types.reverse ++ seen) map := by
  induction types generalizing seen new left pad with
  | nil =>
    cases h
    exact ⟨.nil seen, rfl⟩
  | cons typ types ih =>
    obtain ⟨later, pad, rest, place⟩ := orderExtensions_cons h
    rw [removeEntry_without] at rest
    obtain ⟨fills, remaining⟩ := ih rest
    have layout : (typ :: types).reverse ++ seen = types.reverse ++ (typ :: seen) := by simp
    rw [layout]
    refine ⟨?_, remaining⟩
    rw [lookup_without] at place
    rcases place with ⟨extension, found, rfl⟩ | ⟨absent, ⟨-, dummy, filler, rfl⟩ | ⟨off, -⟩⟩
    · by_cases member : typ ∈ seen
      · rw [if_pos member] at found
        cases found
      · rw [if_neg member] at found
        exact .taken member found rfl fills
    · by_cases member : typ ∈ seen
      · exact .made (.inl member) filler fills
      · rw [if_neg member] at absent
        exact .made (.inr absent) filler fills
    · cases off

theorem orderExtensions_keeps {types : List UInt16} {old left : List (UInt16 × ClientExtension)}
    {new : List ClientExtension} {pad : Bool} (h : orderExtensions addEmpty types old = .ok (new, left, pad))
    {typ : UInt16} {extension : ClientExtension} (listed : typ ∈ types) (known : old.lookup typ = some extension) :
    extension ∈ new := by
  induction types generalizing old new left pad with
  | nil => exact absurd listed List.not_mem_nil
  | cons other types ih =>
    obtain ⟨later, pad, rest, place⟩ := orderExtensions_cons h
    by_cases same : typ = other
    · subst same
      rw [known] at place
      rcases place with ⟨kept, found, rfl⟩ | ⟨absent, -⟩
      · cases found
        exact List.mem_cons_self
      · cases absent
    · have still : (removeEntry other old).2.lookup typ = some extension := by
        rw [lookup_removeEntry, if_neg same, known]
      have member := ih rest ((List.mem_cons.mp listed).resolve_left same) still
      rcases place with ⟨kept, found, rfl⟩ | ⟨absent, ⟨-, dummy, -, rfl⟩ | ⟨-, rfl⟩⟩
      · exact List.mem_cons_of_mem _ member
      · exact List.mem_cons_of_mem _ member
      · exact member

/-! ## The values of the extensions -/

section

variable (deps : FingerprintDeps)

/-- A key share for a curve that the message had none for. -/
def MadeUp (curve : UInt16) (entry : KeyShareEntry) : Prop := Regreased deps curve entry.group ∧ entry.payload = [0x00]

/-- What the spec makes of an extension. Padding is cleared, and filled with zeros. -/
def Rewritten (fp : FingerprintSpec) : ClientExtension → ClientExtension → Prop
  | .namedGroups old, .namedGroups new =>
    match fp.ja3 with
    | some ja3 => List.Forall₂ (Regreased deps) ja3.curves new
    | none => new = old
  | .ecPointFormats old, .ecPointFormats new => new = (fp.ja3.map (·.pointFormats)).getD old
  | .protocols old, .protocols new => new = fp.alpn.getD old
  | .supportedVersions old, .supportedVersions new =>
    match fp.supportedVersions with
    | some vers => List.Forall₂ (Regreased deps) vers new
    | none => new = old
  | .signatureAlgorithms old, .signatureAlgorithms new =>
    match fp.signatureAlgos with
    | some algos => List.Forall₂ (Regreased deps) algos new
    | none => new = old
  | .keyShare old, .keyShare new =>
    match fp.keyshareCurves with
    | some curves => Fills (collectEntries (·.group) old) Eq (MadeUp deps) [] curves new
    | none => new = old
  | .unknown typ old, .unknown typ' new =>
    typ' = typ ∧ if typ = extensionPadding then ∃ n, new = List.replicate n 0 else new = old
  | .typed typ old, new => new = .typed typ old
  | _, _ => False

/-- Every value kept for the other extension is a GREASE value. -/
def Greasy (st : Rewriting) : Prop := ∀ value ∈ st.greaseCurves, deps.isGrease value = true

end

theorem tryRegreaseAll_spec (lawful : deps.Lawful) (values : List UInt16) (st : Rewriting) :
    List.Forall₂ (Regreased deps) values (tryRegreaseAll deps values st).1 ∧
      (tryRegreaseAll deps values st).2.greaseCurves = st.greaseCurves := by
  induction values generalizing st with
  | nil => exact ⟨.nil, rfl⟩
  | cons value values ih =>
    have head : Regreased deps value (tryRegrease deps value st).1 ∧
        (tryRegrease deps value st).2.greaseCurves = st.greaseCurves := by
      unfold tryRegrease Regreased
      by_cases grease : deps.isGrease value = true
      · rw [if_pos grease, if_pos grease]
        exact ⟨lawful.drawn _, rfl⟩
      · rw [if_neg grease, if_neg grease]
        exact ⟨rfl, rfl⟩
    obtain ⟨rest, curves⟩ := ih (tryRegrease deps value st).2
    exact ⟨.cons head.1 rest, curves.trans head.2⟩

theorem overwriteCurve_plain {curve : UInt16} (plain : deps.isGrease curve = false) (first : Bool) (st : Rewriting) :
    overwriteCurve deps first curve st = (curve, st) := by
  rw [overwriteCurve, plain]
  rfl

theorem overwriteCurve_grease {curve : UInt16} (grease : deps.isGrease curve = true) (first : Bool) (st : Rewriting) :
    overwriteCurve deps first curve st = greaseCurve deps first st := by
  rw [overwriteCurve, grease]
  rfl

theorem overwriteCurve_spec (lawful : deps.Lawful) (first : Bool) (curve : UInt16) {st : Rewriting}
    (greasy : Greasy deps st) :
    Regreased deps curve (overwriteCurve deps first curve st).1 ∧
      Greasy deps (overwriteCurve deps first curve st).2 := by
  unfold overwriteCurve Regreased
  by_cases grease : deps.isGrease curve = true
  · rw [if_pos grease, if_pos grease]
    unfold greaseCurve
    cases first with
    | true =>
      refine ⟨lawful.drawn _, ?_⟩
      intro value member
      rcases List.mem_cons.mp member with rfl | older
      · exact lawful.drawn _
      · exact greasy value older
    | false =>
      cases kept : st.greaseCurves with
      | nil => exact ⟨lawful.drawn _, greasy⟩
      | cons value rest =>
        refine ⟨greasy value (kept ▸ List.mem_cons_self), ?_⟩
        intro other member
        exact greasy other (kept ▸ List.mem_cons_of_mem _ member)
  · rw [if_neg grease, if_neg grease]
    exact ⟨rfl, greasy⟩

theorem overwriteGroups_spec (lawful : deps.Lawful) (first : Bool) (curves : List UInt16) {st : Rewriting}
    (greasy : Greasy deps st) :
    List.Forall₂ (Regreased deps) curves (overwriteGroups deps first curves st).1 ∧
      Greasy deps (overwriteGroups deps first curves st).2 := by
  induction curves generalizing st with
  | nil => exact ⟨.nil, greasy⟩
  | cons curve curves ih =>
    obtain ⟨head, kept⟩ := overwriteCurve_spec lawful first curve greasy
    obtain ⟨rest, later⟩ := ih kept
    exact ⟨.cons head rest, later⟩

theorem overwriteKeyShare_spec (lawful : deps.Lawful) (first : Bool) (curves seen : List UInt16)
    (map : List (UInt16 × KeyShareEntry)) {st : Rewriting} (greasy : Greasy deps st) :
    Fills map Eq (MadeUp deps) seen curves (overwriteKeyShare deps first curves (without seen map) st).1 ∧
      Greasy deps (overwriteKeyShare deps first curves (without seen map) st).2 := by
  induction curves generalizing seen st with
  | nil => exact ⟨.nil seen, greasy⟩
  | cons curve curves ih =>
    unfold overwriteKeyShare
    cases removed : removeEntry curve (without seen map) with
    | mk found smaller =>
      obtain ⟨rfl, taken, missing⟩ := removeEntry_cases removed
      cases found with
      | some entry =>
        obtain ⟨fresh, known⟩ := taken entry rfl
        obtain ⟨rest, later⟩ := ih (curve :: seen) greasy
        exact ⟨.taken fresh known rfl rest, later⟩
      | none =>
        obtain ⟨head, kept⟩ := overwriteCurve_spec lawful first curve greasy
        obtain ⟨rest, later⟩ := ih (curve :: seen) kept
        exact ⟨.made (missing rfl) ⟨head, rfl⟩ rest, later⟩

theorem rewriteExtension_padding (st : Rewriting) (payload : Bytes) :
    rewriteExtension deps fp st (.unknown extensionPadding payload) =
      (.unknown extensionPadding [], { st with pad := true }) := rfl

theorem rewriteExtension_unknown {typ : UInt16} (other : typ ≠ extensionPadding) (st : Rewriting) (payload : Bytes) :
    rewriteExtension deps fp st (.unknown typ payload) = (.unknown typ payload, st) := if_neg other

theorem rewriteExtension_spec (lawful : deps.Lawful) {st : Rewriting} (greasy : Greasy deps st)
    (extension : ClientExtension) :
    Rewritten deps fp extension (rewriteExtension deps fp st extension).1 ∧
      Greasy deps (rewriteExtension deps fp st extension).2 := by
  cases extension with
  | namedGroups groups =>
    unfold rewriteExtension Rewritten
    cases fp.ja3 with
    | none => exact ⟨rfl, greasy⟩
    | some ja3 =>
      obtain ⟨groups, kept⟩ := overwriteGroups_spec lawful st.greaseCurves.isEmpty ja3.curves greasy
      exact ⟨groups, kept⟩
  | ecPointFormats formats => exact ⟨rfl, greasy⟩
  | protocols alpn => exact ⟨rfl, greasy⟩
  | supportedVersions vers =>
    unfold rewriteExtension Rewritten
    cases fp.supportedVersions with
    | none => exact ⟨rfl, greasy⟩
    | some vers =>
      obtain ⟨values, kept⟩ := tryRegreaseAll_spec lawful vers st
      exact ⟨values, fun value member => greasy value (kept ▸ member)⟩
  | signatureAlgorithms algos =>
    unfold rewriteExtension Rewritten
    cases fp.signatureAlgos with
    | none => exact ⟨rfl, greasy⟩
    | some algos =>
      obtain ⟨values, kept⟩ := tryRegreaseAll_spec lawful algos st
      exact ⟨values, fun value member => greasy value (kept ▸ member)⟩
  | keyShare entries =>
    unfold rewriteExtension Rewritten
    cases fp.keyshareCurves with
    | none => exact ⟨rfl, greasy⟩
    | some curves =>
      have shares := overwriteKeyShare_spec lawful st.greaseCurves.isEmpty curves []
        (collectEntries (·.group) entries) greasy
      rw [without_nil] at shares
      exact shares
  | unknown typ payload =>
    by_cases padding : typ = extensionPadding
    · subst padding
      rw [rewriteExtension_padding]
      exact ⟨⟨rfl, 0, rfl⟩, greasy⟩
    · rw [rewriteExtension_unknown padding]
      exact ⟨⟨rfl, by rw [if_neg padding]⟩, greasy⟩
  | typed typ body => exact ⟨rfl, greasy⟩

theorem rewriteExtensions_spec (lawful : deps.Lawful) (extensions : List ClientExtension) {st : Rewriting}
    (greasy : Greasy deps st) :
    List.Forall₂ (Rewritten deps fp) extensions (rewriteExtensions deps fp extensions st).1 := by
  induction extensions generalizing st with
  | nil => exact .nil
  | cons extension extensions ih =>
    obtain ⟨head, kept⟩ := rewriteExtension_spec lawful greasy extension
    exact .cons head (ih kept)

theorem rewriteExtensions_fresh (lawful : deps.Lawful) {ordered extensions : List ClientExtension} {pad : Bool}
    {st : Rewriting} (rewritten : rewriteExtensions deps fp ordered ⟨[], 0, pad⟩ = (extensions, st)) :
    List.Forall₂ (Rewritten deps fp) ordered extensions := by
  have values : List.Forall₂ (Rewritten deps fp) ordered (rewriteExtensions deps fp ordered ⟨[], 0, pad⟩).1 :=
    rewriteExtensions_spec lawful ordered nofun
  rwa [rewritten] at values

/-! ## Padding -/

namespace ClientExtension

def isPadding : ClientExtension → Bool
  | .unknown typ _ => typ = extensionPadding
  | _ => false

/-- An extension without its padding. -/
def emptied : ClientExtension → ClientExtension
  | .unknown typ payload => if typ = extensionPadding then .unknown typ [] else .unknown typ payload
  | extension => extension

end ClientExtension

theorem tryRegreaseAll_pad (values : List UInt16) (st : Rewriting) :
    (tryRegreaseAll deps values st).2.pad = st.pad := by
  induction values generalizing st with
  | nil => rfl
  | cons value values ih =>
    have head : (tryRegrease deps value st).2.pad = st.pad := by
      unfold tryRegrease
      split <;> rfl
    exact (ih _).trans head

theorem overwriteCurve_pad (first : Bool) (curve : UInt16) (st : Rewriting) :
    (overwriteCurve deps first curve st).2.pad = st.pad := by
  unfold overwriteCurve greaseCurve
  cases deps.isGrease curve with
  | false => rfl
  | true =>
    cases first with
    | true => rfl
    | false => cases st.greaseCurves <;> rfl

theorem overwriteGroups_pad (first : Bool) (curves : List UInt16) (st : Rewriting) :
    (overwriteGroups deps first curves st).2.pad = st.pad := by
  induction curves generalizing st with
  | nil => rfl
  | cons curve curves ih => exact (ih _).trans (overwriteCurve_pad first curve st)

theorem overwriteKeyShare_pad (first : Bool) (curves : List UInt16) (old : List (UInt16 × KeyShareEntry))
    (st : Rewriting) : (overwriteKeyShare deps first curves old st).2.pad = st.pad := by
  induction curves generalizing old st with
  | nil => rfl
  | cons curve curves ih =>
    unfold overwriteKeyShare
    cases removeEntry curve old with
    | mk found smaller =>
      cases found with
      | some entry => exact ih smaller st
      | none => exact (ih smaller _).trans (overwriteCurve_pad first curve st)

/-- Padding stays padding, is emptied and asks for padding; nothing else becomes padding. -/
theorem rewriteExtension_pads (st : Rewriting) (extension : ClientExtension) :
    (rewriteExtension deps fp st extension).1.emptied = (rewriteExtension deps fp st extension).1 ∧
      (rewriteExtension deps fp st extension).1.isPadding = extension.isPadding ∧
      (rewriteExtension deps fp st extension).2.pad = (st.pad || extension.isPadding) := by
  have kept := Bool.or_false st.pad
  cases extension with
  | namedGroups groups =>
    unfold rewriteExtension
    cases fp.ja3 with
    | none => exact ⟨rfl, rfl, kept.symm⟩
    | some ja3 => exact ⟨rfl, rfl, (overwriteGroups_pad ..).trans kept.symm⟩
  | ecPointFormats formats => exact ⟨rfl, rfl, kept.symm⟩
  | protocols alpn => exact ⟨rfl, rfl, kept.symm⟩
  | supportedVersions vers =>
    unfold rewriteExtension
    cases fp.supportedVersions with
    | none => exact ⟨rfl, rfl, kept.symm⟩
    | some vers => exact ⟨rfl, rfl, (tryRegreaseAll_pad ..).trans kept.symm⟩
  | signatureAlgorithms algos =>
    unfold rewriteExtension
    cases fp.signatureAlgos with
    | none => exact ⟨rfl, rfl, kept.symm⟩
    | some algos => exact ⟨rfl, rfl, (tryRegreaseAll_pad ..).trans kept.symm⟩
  | keyShare entries =>
    unfold rewriteExtension
    cases fp.keyshareCurves with
    | none => exact ⟨rfl, rfl, kept.symm⟩
    | some curves => exact ⟨rfl, rfl, (overwriteKeyShare_pad ..).trans kept.symm⟩
  | unknown typ payload =>
    by_cases padding : typ = extensionPadding
    · subst padding
      exact ⟨rfl, rfl, (Bool.or_true st.pad).symm⟩
    · rw [rewriteExtension_unknown padding]
      exact ⟨if_neg padding, rfl, by simp [ClientExtension.isPadding, padding]⟩
  | typed typ body => exact ⟨rfl, rfl, kept.symm⟩

theorem rewriteExtensions_pads (extensions : List ClientExtension) (st : Rewriting) :
    (rewriteExtensions deps fp extensions st).1.map (·.emptied) = (rewriteExtensions deps fp extensions st).1 ∧
      (rewriteExtensions deps fp extensions st).1.any (·.isPadding) = extensions.any (·.isPadding) ∧
      (rewriteExtensions deps fp extensions st).2.pad = (st.pad || extensions.any (·.isPadding)) := by
  induction extensions generalizing st with
  | nil => exact ⟨rfl, rfl, (Bool.or_false st.pad).symm⟩
  | cons extension extensions ih =>
    obtain ⟨empty, padding, pad⟩ := @rewriteExtension_pads deps fp st extension
    obtain ⟨emptyRest, paddingRest, padRest⟩ := ih (rewriteExtension deps fp st extension).2
    rw [pad, Bool.or_assoc] at padRest
    exact ⟨congrArg₂ List.cons empty emptyRest, congrArg₂ or padding paddingRest, padRest⟩

/-- What does not depend on the zeros of a padding extension. -/
theorem padExtensions_map {β : Type} {f : ClientExtension → β}
    (blind : ∀ old new, f (.unknown extensionPadding old) = f (.unknown extensionPadding new)) (n : Nat)
    (extensions : List ClientExtension) : (padExtensions n extensions).map f = extensions.map f := by
  induction extensions with
  | nil => rfl
  | cons extension extensions ih =>
    cases extension with
    | unknown typ payload =>
      unfold padExtensions
      by_cases padding : typ = extensionPadding
      · subst padding
        exact congrArg (List.cons · _) (blind _ _)
      · rw [if_neg padding]
        exact congrArg (List.cons _) ih
    | _ => exact congrArg (List.cons _) ih

theorem padExtensions_emptied (n : Nat) {extensions : List ClientExtension}
    (empty : extensions.map (·.emptied) = extensions) : (padExtensions n extensions).map (·.emptied) = extensions :=
  (padExtensions_map (fun _ _ => rfl) n extensions).trans empty

theorem padExtensions_zero {extensions : List ClientExtension} (empty : extensions.map (·.emptied) = extensions) :
    padExtensions 0 extensions = extensions := by
  induction extensions with
  | nil => rfl
  | cons extension extensions ih =>
    obtain ⟨head, tail⟩ := List.cons.inj empty
    cases extension with
    | unknown typ payload =>
      unfold padExtensions
      by_cases padding : typ = extensionPadding
      · subst padding
        cases head
        rfl
      · rw [if_neg padding, ih tail]
    | _ => exact congrArg (List.cons _) (ih tail)

theorem padExtensions_rewritten (n : Nat) {old new : List ClientExtension}
    (rewritten : List.Forall₂ (Rewritten deps fp) old new) :
    List.Forall₂ (Rewritten deps fp) old (padExtensions n new) := by
  induction rewritten with
  | nil => exact .nil
  | @cons before after olds news head tail ih =>
    cases after with
    | unknown typ payload =>
      unfold padExtensions
      by_cases padding : typ = extensionPadding
      · rw [if_pos padding]
        refine .cons ?_ tail
        subst padding
        cases before with
        | unknown typ old =>
          obtain ⟨same, value⟩ := head
          subst same
          obtain ⟨m, rfl⟩ := value
          exact ⟨rfl, _, by rw [List.take_replicate, List.replicate_append_replicate]⟩
        | typed typ body => cases head
        | _ => exact head.elim
      · rw [if_neg padding]
        exact .cons head ih
    | _ => exact .cons head ih

/-! ## The overwritten message -/

/-- The extensions before their values are rewritten. -/
def Ordered (deps : FingerprintDeps) (fp : FingerprintSpec) (addEmpty drop : Bool)
    (original ordered : List ClientExtension) : Prop :=
  match fp.ja3 with
  | some ja3 => ∃ pad, matchExtensions deps addEmpty drop ja3 original = .ok (ordered, pad)
  | none => ordered = original

/-- What is missing to the target, if padding is asked for. -/
def missingPadding (deps : FingerprintDeps) (pad : Bool) (hello : ClientHello) : Nat :=
  if pad then rfc7685PaddingTarget - (deps.getEncoding hello).length else 0

theorem padPerRfc7685_eq (pad : Bool) {hello : ClientHello}
    (empty : hello.extensions.map (·.emptied) = hello.extensions) :
    (if pad then padPerRfc7685 deps hello else hello) =
      { hello with extensions := padExtensions (missingPadding deps pad hello) hello.extensions } := by
  have unpadded : { hello with extensions := padExtensions 0 hello.extensions } = hello := by
    rw [padExtensions_zero empty]
  cases pad with
  | false => exact unpadded.symm
  | true =>
    by_cases full : rfc7685PaddingTarget - (deps.getEncoding hello).length = 0
    · simp only [padPerRfc7685, missingPadding, full, if_true, ne_eq, not_true_eq_false, if_false]
      exact unpadded.symm
    · simp only [padPerRfc7685, missingPadding, full, if_true, ne_eq, not_false_eq_true]

/-- The ClientHello before padding. -/
def rewrittenHello (fp : FingerprintSpec) (hello : ClientHello) (extensions : List ClientExtension) : ClientHello :=
  { hello with cipherSuites := (fp.ja3.map (·.ciphers)).getD hello.cipherSuites, extensions := extensions }

/-- Order, values and padding. -/
theorem overwriteHello_ok {hello after : ClientHello} (h : overwriteHello deps fp addEmpty drop hello = .ok after) :
    ∃ ordered pad extensions st, Ordered deps fp addEmpty drop hello.extensions ordered ∧
      rewriteExtensions deps fp ordered ⟨[], 0, pad⟩ = (extensions, st) ∧
      after = rewrittenHello fp hello
        (padExtensions (missingPadding deps st.pad (rewrittenHello fp hello extensions)) extensions) := by
  unfold overwriteHello at h
  dsimp only at h
  split at h
  · cases h
  · next ordered pad result =>
    have empty := (@rewriteExtensions_pads deps fp ordered ⟨[], 0, pad⟩).1
    refine ⟨ordered, pad, _, _, ?_, rfl, ?_⟩
    · unfold Ordered
      cases given : fp.ja3 with
      | none =>
        rw [given] at result
        cases result
        rfl
      | some ja3 =>
        rw [given] at result
        exact ⟨pad, result⟩
    · rw [← Except.ok.inj h]
      exact padPerRfc7685_eq _ empty

theorem overwriteClientHello_ok {version : UInt16} {hello : ClientHello} {encoded : Bytes} {new : ClientMessage}
    {allowed : List UInt16}
    (h : overwriteClientHelloWithFingerprintSpec deps fp addEmpty drop ⟨version, .clientHello hello encoded⟩ =
      .ok (new, allowed)) :
    ∃ after, overwriteHello deps fp addEmpty drop hello = .ok after ∧
      new.payload = .clientHello after (deps.getEncoding after) := by
  obtain ⟨after, written, same⟩ := map_eq_ok h
  cases same
  exact ⟨after, written, rfl⟩

theorem matchExtensions_ok {ja3 : Ja3} {extensions ordered : List ClientExtension} {pad : Bool}
    (lawful : deps.Lawful) (h : matchExtensions deps addEmpty drop ja3 extensions = .ok (ordered, pad)) :
    ∃ placed left rest, ordered = placed ++ rest ∧
      orderExtensions addEmpty (deps.regreased ja3.extensions) (collectEntries (·.getType) extensions) =
        .ok (placed, left, pad) ∧
      (drop = true → rest = []) ∧ (drop = false → rest.Perm (left.map Prod.snd)) := by
  unfold matchExtensions at h
  split at h
  · cases h
  · next placed left padded order =>
    cases h
    cases drop with
    | true => exact ⟨placed, left, [], by simp, order, fun _ => rfl, nofun⟩
    | false =>
      by_cases none : left = []
      · exact ⟨placed, left, [], by simp [none], order, nofun, fun _ => by rw [none]; exact .nil⟩
      · exact ⟨placed, left, _, by simp [none], order, nofun, fun _ => lawful.drained _⟩

/-- What is made up for a type, with zeros behind it if it is padding. -/
def DummyUpToPadding (typ : UInt16) (extension : ClientExtension) : Prop :=
  ∃ payload zeros, dummyPayload typ = .ok payload ∧ extension = .unknown typ (payload ++ List.replicate zeros 0) ∧
    (typ ≠ extensionPadding → zeros = 0)

theorem Rewritten.dummy {typ : UInt16} {dummy extension : ClientExtension} (made : Dummy typ dummy)
    (rewritten : Rewritten deps fp dummy extension) : DummyUpToPadding typ extension := by
  obtain ⟨payload, given, rfl⟩ := made
  cases extension with
  | unknown other value =>
    obtain ⟨rfl, value⟩ := rewritten
    by_cases padding : other = extensionPadding
    · subst padding
      obtain ⟨n, rfl⟩ := value
      cases given
      exact ⟨[], n, rfl, rfl, fun other => absurd rfl other⟩
    · rw [if_neg padding] at value
      subst value
      exact ⟨value, 0, given, by simp, fun _ => rfl⟩
  | _ => exact rewritten.elim

theorem Rewritten.getType {old new : ClientExtension} (rewritten : Rewritten deps fp old new) :
    new.getType = old.getType := by
  cases old with
  | typed typ body =>
    cases rewritten
    rfl
  | unknown typ payload =>
    cases new with
    | unknown other value => exact rewritten.1
    | _ => exact rewritten.elim
  | _ => cases new <;> first | rfl | exact rewritten.elim

/-- What no type of the JA3 has taken. -/
theorem left_perm {types : List UInt16} {extensions : List ClientExtension}
    (distinct : (extensions.map (·.getType)).Nodup) :
    ((without (types.reverse ++ []) (collectEntries (·.getType) extensions)).map Prod.snd).Perm
      (extensions.filter (·.getType ∉ types)) := by
  have same : (without (types.reverse ++ []) (collectEntries (·.getType) extensions)).map Prod.snd =
      (extensions.filter (·.getType ∉ types)).reverse := by
    rw [collectEntries_distinct distinct, without, List.filter_reverse, List.map_reverse, List.filter_map, List.map_map]
    simp only [List.append_nil, List.mem_reverse]
    congr 1
    exact List.map_id _
  rw [same]
  exact List.reverse_perm _

theorem DummyUpToPadding.getType {typ : UInt16} {extension : ClientExtension}
    (dummy : DummyUpToPadding typ extension) : extension.getType = typ := by
  obtain ⟨payload, zeros, -, rfl, -⟩ := dummy
  rfl

theorem lookup_original {extensions : List ClientExtension} (distinct : (extensions.map (·.getType)).Nodup)
    {original : ClientExtension} (member : original ∈ extensions) :
    (collectEntries (·.getType) extensions).lookup original.getType = some original := by
  apply (collectEntries_keyed (·.getType) extensions).lookup
  rw [collectEntries_distinct distinct, List.mem_reverse]
  exact List.mem_map_of_mem member

theorem original_of_lookup {extensions : List ClientExtension} {typ : UInt16} {entry : ClientExtension}
    (found : (collectEntries (·.getType) extensions).lookup typ = some entry) :
    entry ∈ extensions ∧ entry.getType = typ := by
  have member := mem_of_lookup found
  exact ⟨mem_collectEntries _ _ _ member, ((collectEntries_keyed _ extensions).2 _ member).symm⟩

/-! ### A concrete message -/

def plainBody : ClientExtension → Bytes
  | .unknown _ body | .typed _ body => body
  | .namedGroups codes | .supportedVersions codes | .signatureAlgorithms codes => codes.flatMap (be16 ·.toNat)
  | .ecPointFormats formats => formats
  | .protocols alpn => alpn.flatten
  | .keyShare entries => entries.flatMap fun entry => be16 entry.group.toNat ++ entry.payload

def plainExtension (extension : ClientExtension) : Bytes :=
  be16 extension.getType.toNat ++ (be16 (plainBody extension).length ++ plainBody extension)

def plainLead (hello : ClientHello) : Bytes :=
  hello.random ++ (hello.sessionId ++ (hello.cipherSuites.flatMap (be16 ·.toNat) ++
    if hello.extensions = [] then [] else be16 (hello.extensions.flatMap plainExtension).length))

def plainGrease : FingerprintDeps where
  isGrease value := value &&& 0x0f0f = 0x0a0a
  grease n := if n % 2 = 0 then 0x1a1a else 0x2a2a
  regreased types := types.map fun typ => if typ &&& 0x0f0f = 0x0a0a then 0x3a3a else typ
  shuffled := List.reverse
  getEncoding hello := plainLead hello ++ hello.extensions.flatMap plainExtension

theorem plainGrease_lawful : plainGrease.Lawful where
  shape value grease := of_decide_eq_true grease
  drawn n := by
    show decide ((if n % 2 = 0 then (0x1a1a : UInt16) else 0x2a2a) &&& 0x0f0f = 0x0a0a) = true
    split <;> rfl
  regreased types := by
    refine List.forall₂_map_right_iff.mpr (List.forall₂_same.mpr ?_)
    intro typ _
    show if decide (typ &&& 0x0f0f = 0x0a0a) = true then _ else _
    by_cases grease : typ &&& 0x0f0f = 0x0a0a
    · rw [if_pos (decide_eq_true grease), if_pos grease]
      rfl
    · rw [if_neg (by simpa using grease), if_neg grease]
  drained := List.reverse_perm

/-- What rustls sends, more or less. -/
def rustlsHello : ClientHello where
  random := List.replicate 32 0x11
  sessionId := List.replicate 32 0x22
  random_length := rfl
  sessionId_length := rfl
  cipherSuites := [0x1301]
  extensions := [.typed 0x0000 [0x61], .namedGroups [0x001d, 0x0017], .supportedVersions [0x0304],
    .keyShare [⟨0x001d, [0x01, 0x02]⟩]]

/-- A fingerprint with padding and with one type twice. -/
def paddedSpec : FingerprintSpec where
  ja3 := some ⟨0x0303, [0x0a0a, 0x1301], [0x0a0a, 0x0033, 0x000a, 0x0015, 0x0033], [0x0a0a, 0x001d], [0x00]⟩
  alpn := none
  signatureAlgos := none
  supportedVersions := none
  keyshareCurves := some [0x0a0a, 0x001d]

/-- The extensions of an overwritten ClientHello. -/
theorem ja3_layout (deps : FingerprintDeps) (lawful : deps.Lawful) (fp : FingerprintSpec) (ja3 : Ja3)
    (given : fp.ja3 = some ja3) (drop : Bool) (version : UInt16) (hello : ClientHello) (encoded : Bytes)
    (distinct : (hello.extensions.map (·.getType)).Nodup) (new : ClientMessage) (allowed : List UInt16)
    (written : overwriteClientHelloWithFingerprintSpec deps fp true drop ⟨version, .clientHello hello encoded⟩ =
      .ok (new, allowed)) :
    List.Forall₂ (Regreased deps) ja3.extensions (deps.regreased ja3.extensions) ∧
    ∃ after placed rest, new.payload = .clientHello after (deps.getEncoding after) ∧
      after.extensions = placed ++ rest ∧
      placed.map (·.getType) = deps.regreased ja3.extensions ∧
      (∀ i typ extension, (deps.regreased ja3.extensions)[i]? = some typ → placed[i]? = some extension →
        (∀ original ∈ hello.extensions, original.getType = typ → (deps.regreased ja3.extensions).idxOf typ = i →
          Rewritten deps fp original extension) ∧
        ((∀ original ∈ hello.extensions, original.getType ≠ typ) ∨ (deps.regreased ja3.extensions).idxOf typ ≠ i →
          DummyUpToPadding typ extension)) ∧
      (drop = true → rest = []) ∧
      (drop = false → ∃ others, others.Perm
          (hello.extensions.filter (·.getType ∉ deps.regreased ja3.extensions)) ∧
        List.Forall₂ (Rewritten deps fp) others rest) := by
  refine ⟨lawful.regreased _, ?_⟩
  obtain ⟨after, overwritten, payload⟩ := overwriteClientHello_ok written
  obtain ⟨ordered, pad, extensions, st, order, rewritten, rfl⟩ := overwriteHello_ok overwritten
  unfold Ordered at order
  rw [given] at order
  obtain ⟨padded, matched⟩ := order
  obtain ⟨front, left, back, rfl, placing, dropped, kept⟩ := matchExtensions_ok lawful matched
  rw [← without_nil (collectEntries _ _)] at placing
  obtain ⟨fills, rfl⟩ := orderExtensions_fills placing
  have values := rewriteExtensions_fresh lawful rewritten
  have values := padExtensions_rewritten (missingPadding deps st.pad (rewrittenHello fp hello extensions)) values
  generalize padExtensions _ extensions = result at values payload ⊢
  have first := List.forall₂_take front.length values
  have second := List.forall₂_drop front.length values
  rw [List.take_left] at first
  rw [List.drop_left] at second
  have fills : Fills _ (Rewritten deps fp) DummyUpToPadding [] _ _ :=
    fills.mono first (fun _ _ _ same value => same ▸ value) (fun _ _ _ => Rewritten.dummy)
  refine ⟨_, result.take front.length, result.drop front.length, payload, (List.take_append_drop ..).symm,
    ?_, ?_, ?_, ?_⟩
  · have types : List.Forall₂ (fun typ extension => typ = ClientExtension.getType extension) _ _ :=
      fills.forall₂ (fun typ entry extension found value => by rw [value.getType, (original_of_lookup found).2])
        (fun typ extension dummy => dummy.getType.symm)
    exact (List.forall₂_eq_eq_eq ▸ List.forall₂_map_right_iff.mpr types).symm
  · intro i typ extension listed placed
    rcases fills.at listed placed with ⟨entry, -, position, found, value⟩ | ⟨missing, dummy⟩
    · constructor
      · rintro original member rfl -
        rw [lookup_original distinct member] at found
        cases found
        exact value
      · rintro (absent | later)
        · exact absurd (original_of_lookup found).2 (absent _ (original_of_lookup found).1)
        · exact absurd position later
    · refine ⟨?_, fun _ => dummy⟩
      rintro original member rfl position
      rw [lookup_original distinct member] at missing
      rcases missing with seen | later | absent
      · cases seen
      · exact absurd position later
      · cases absent
  · intro on
    rw [dropped on] at second
    exact List.forall₂_nil_left_iff.mp second
  · intro off
    exact ⟨back, (kept off).trans (left_perm distinct), second⟩

theorem ja3_layout_padded :
    ∃ new allowed, overwriteClientHelloWithFingerprintSpec plainGrease paddedSpec true false
        ⟨0x0301, .clientHello rustlsHello []⟩ = .ok (new, allowed) ∧
      ∃ after placed rest, new.payload = .clientHello after (plainGrease.getEncoding after) ∧
        after.extensions = placed ++ rest ∧
        placed.map (·.getType) = [0x3a3a, 0x0033, 0x000a, 0x0015, 0x0033] ∧ rest.length = 2 := by
  refine ⟨_, _, rfl, ?_⟩
  obtain ⟨-, after, placed, rest, payload, split, types, -, -, appended⟩ :=
    ja3_layout plainGrease plainGrease_lawful paddedSpec _ rfl false 0x0301 rustlsHello []
      (by decide) _ _ rfl
  obtain ⟨others, perm, rewritten⟩ := appended rfl
  exact ⟨after, placed, rest, payload, split, types, rewritten.length_eq.symm.trans (perm.length_eq.trans rfl)⟩

/-! ## The size of the message -/

/-- What is assumed of the encoding of rustls: the extensions are put one behind the other, and the length
fields before them have a fixed width. -/
structure HelloEncoding (getEncoding : ClientHello → Bytes) where
  lead : ClientHello → Bytes
  encode : ClientExtension → Bytes
  eq : ∀ hello, getEncoding hello = lead hello ++ hello.extensions.flatMap encode
  lead_length : ∀ a b : ClientHello, a.toClientHelloPayload = b.toClientHelloPayload →
    a.cipherSuites = b.cipherSuites → (a.extensions = [] ↔ b.extensions = []) → (lead a).length = (lead b).length
  unknown_length : ∀ typ payload, (encode (.unknown typ payload)).length = 4 + payload.length

/-- A message with all its padding extensions empty. -/
def ClientHello.emptied (hello : ClientHello) : ClientHello :=
  { hello with extensions := hello.extensions.map (·.emptied) }

theorem padExtensions_isPadding (n : Nat) (extensions : List ClientExtension) :
    (padExtensions n extensions).any (·.isPadding) = extensions.any (·.isPadding) := by
  have same := congrArg (List.any · id) (@padExtensions_map _ ClientExtension.isPadding (fun _ _ => rfl) n extensions)
  rwa [List.any_map, List.any_map] at same

theorem padExtensions_length {getEncoding : ClientHello → Bytes} (encoding : HelloEncoding getEncoding) (n : Nat)
    {extensions : List ClientExtension} (empty : extensions.map (·.emptied) = extensions)
    (padded : extensions.any (·.isPadding) = true) :
    ((padExtensions n extensions).flatMap encoding.encode).length =
      (extensions.flatMap encoding.encode).length + n := by
  induction extensions with
  | nil => cases padded
  | cons extension extensions ih =>
    obtain ⟨head, tail⟩ := List.cons.inj empty
    have later (plain : extension.isPadding = false) :
        ((padExtensions n extensions).flatMap encoding.encode).length =
          (extensions.flatMap encoding.encode).length + n := by
      rw [List.any_cons, plain, Bool.false_or] at padded
      exact ih tail padded
    cases extension with
    | unknown typ payload =>
      unfold padExtensions
      by_cases padding : typ = extensionPadding
      · subst padding
        cases head
        simp only [if_true, List.flatMap_cons, List.length_append, encoding.unknown_length, List.take_nil,
          List.length_nil, List.nil_append, List.length_replicate]
        omega
      · have rest := later (decide_eq_false padding)
        simp only [if_neg padding, List.flatMap_cons, List.length_append, rest]
        omega
    | _ =>
      have rest := later rfl
      simp only [padExtensions, List.flatMap_cons, List.length_append, rest]
      omega

theorem getEncoding_length {getEncoding : ClientHello → Bytes} (encoding : HelloEncoding getEncoding)
    (hello : ClientHello) (n : Nat) (empty : hello.extensions.map (·.emptied) = hello.extensions)
    (padded : hello.extensions.any (·.isPadding) = true) :
    (getEncoding { hello with extensions := padExtensions n hello.extensions }).length =
      (getEncoding hello).length + n := by
  have some : hello.extensions ≠ [] := by
    intro none
    rw [none] at padded
    cases padded
  have more : padExtensions n hello.extensions ≠ [] := by
    intro none
    have cleared := padExtensions_emptied n empty
    rw [none] at cleared
    exact some cleared.symm
  rw [encoding.eq, encoding.eq, List.length_append, List.length_append, padExtensions_length encoding n empty padded,
    encoding.lead_length { hello with extensions := padExtensions n hello.extensions } hello rfl rfl
      (iff_of_false more some)]
  omega

/-- The message is stored as it is encoded, and padding makes it 512 bytes long if it is shorter without. -/
theorem padding_to_target (deps : FingerprintDeps) (encoding : HelloEncoding deps.getEncoding) (fp : FingerprintSpec)
    (addEmpty drop : Bool) (version : UInt16) (hello : ClientHello) (encoded : Bytes) (new : ClientMessage)
    (allowed : List UInt16)
    (written : overwriteClientHelloWithFingerprintSpec deps fp addEmpty drop ⟨version, .clientHello hello encoded⟩ =
      .ok (new, allowed)) :
    ∃ after stored, new.payload = .clientHello after stored ∧ stored = deps.getEncoding after ∧
      ((∃ extension ∈ after.extensions, extension.isPadding = true) →
        stored.length = max 512 (deps.getEncoding after.emptied).length) := by
  obtain ⟨after, overwritten, payload⟩ := overwriteClientHello_ok written
  refine ⟨after, _, payload, rfl, ?_⟩
  obtain ⟨ordered, pad, extensions, st, -, rewritten, rfl⟩ := overwriteHello_ok overwritten
  obtain ⟨empty, paddings, asked⟩ := @rewriteExtensions_pads deps fp ordered ⟨[], 0, pad⟩
  rw [rewritten] at empty paddings asked
  dsimp only at empty paddings asked
  rintro ⟨extension, member, padding⟩
  have some : extensions.any (·.isPadding) = true := by
    rw [← padExtensions_isPadding]
    exact List.any_eq_true.mpr ⟨extension, member, padding⟩
  have on : st.pad = true := by rw [asked, ← paddings, some, Bool.or_true]
  -- without its padding the message is the one that was measured
  have cleared : (rewrittenHello fp hello (padExtensions (missingPadding deps st.pad
      (rewrittenHello fp hello extensions)) extensions)).emptied = rewrittenHello fp hello extensions := by
    unfold ClientHello.emptied rewrittenHello
    rw [padExtensions_emptied _ empty]
  have length := getEncoding_length encoding (rewrittenHello fp hello extensions)
    (missingPadding deps st.pad (rewrittenHello fp hello extensions)) empty some
  have missing : missingPadding deps st.pad (rewrittenHello fp hello extensions) =
      512 - (deps.getEncoding (rewrittenHello fp hello extensions)).length := by
    rw [missingPadding, if_pos on]
    rfl
  rw [cleared]
  refine length.trans ?_
  omega

def concatenated : HelloEncoding plainGrease.getEncoding where
  lead := plainLead
  encode := plainExtension
  eq hello := rfl
  lead_length a b payload suites empty := by
    simp only [plainLead, List.length_append, payload, suites]
    by_cases none : a.extensions = []
    · rw [if_pos none, if_pos (empty.mp none)]
    · rw [if_neg none, if_neg (mt empty.mpr none), be16_length, be16_length]
  unknown_length typ payload := by
    simp only [plainExtension, plainBody, List.length_append, be16_length]
    omega

theorem padding_to_target_listed :
    ∃ new allowed, overwriteClientHelloWithFingerprintSpec plainGrease paddedSpec true true
        ⟨0x0301, .clientHello rustlsHello []⟩ = .ok (new, allowed) ∧
      ∃ after stored, new.payload = .clientHello after stored ∧
        stored.length = max 512 (plainGrease.getEncoding after.emptied).length := by
  refine ⟨_, _, rfl, ?_⟩
  obtain ⟨after, stored, payload, same, length⟩ :=
    padding_to_target plainGrease concatenated paddedSpec true true 0x0301 rustlsHello [] _ _ rfl
  refine ⟨after, stored, payload, length ?_⟩
  have written := (MessagePayload.clientHello.inj payload).1
  rw [← written]
  exact List.any_eq_true.mp rfl

end NoisyShuttle.Tunnel
