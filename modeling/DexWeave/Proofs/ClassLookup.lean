/-
  DexWeave/Proofs/ClassLookup.lean --- classes found by name.

  WHAT THIS FILE IS FOR.  A class is looked up by its descriptor: the first entry of the
  type pool with that descriptor is found, and then the first definition that names this
  entry.  Reading the whole container goes the other way, from each definition to its own
  entry.  The file compares the two for containers of any kind, also for those that hold
  one descriptor more than once.

  WHAT IS FOUND.  What the lookup finds is always a definition of the class.  It is the
  first one exactly if that one names the first entry of its descriptor; a definition that
  names another entry is passed over.  Where no descriptor is repeated nothing is.
-/
import DexWeave.Proofs.Reencode

set_option autoImplicit false

namespace DexWeave

open Fallible

/-! ## Two tests of one list -/

/-- Of two tests, one stricter than the other, both pass the same element first exactly if the
first element that passes one passes the stricter one. -/
theorem findIdx?_eq_findIdx?_iff {α : Type} {strict test : α → Bool} {xs : List α}
    (h : ∀ x ∈ xs, strict x = true → test x = true) :
    xs.findIdx? strict = xs.findIdx? test ↔
      ∀ x, xs.find? test = some x → strict x = true := by
  induction xs with
  | nil => exact iff_of_true rfl nofun
  | cons x xs ih =>
    obtain ⟨hx, hxs⟩ := List.forall_mem_cons.mp h
    rw [List.findIdx?_cons, List.findIdx?_cons]
    by_cases htest : test x = true
    · rw [List.find?_cons_of_pos htest, if_pos htest]
      by_cases hstrict : strict x = true
      · rw [if_pos hstrict]
        exact iff_of_true rfl fun y hy => Option.some.inj hy ▸ hstrict
      · rw [if_neg hstrict]
        refine iff_of_false (fun heq => ?_) fun hall => hstrict (hall x rfl)
        obtain ⟨n, -, hn⟩ := Option.map_eq_some_iff.mp heq
        cases hn
    · rw [List.find?_cons_of_neg htest, if_neg htest, if_neg fun hstrict => htest (hx hstrict),
        ← ih hxs]
      exact (Option.map_injective fun _ _ => Nat.succ.inj).eq_iff

/-! ## Descriptors and their entries -/

namespace Pools

variable {p : Pools} {i : UInt32} {descriptor : String}

theorem descriptorAt_eq_ok_iff :
    p.descriptorAt i = .ok descriptor ↔
      ∃ s, p.types[i.toNat]? = some s ∧ p.strings[s.toNat]? = some descriptor := by
  rw [descriptorAt, bind_eq_ok]
  simp only [stringAt, entry_eq_ok_iff]

/-- What is found has the descriptor. -/
theorem descriptorAt_of_findType? (h : p.findType? descriptor = some i.toNat) :
    p.descriptorAt i = .ok descriptor := by
  obtain ⟨hlt, htest, -⟩ := List.findIdx?_eq_some_iff_getElem.mp h
  exact descriptorAt_eq_ok_iff.mpr
    ⟨_, List.getElem?_eq_getElem hlt, of_decide_eq_true htest⟩

/-- Where an entry has the descriptor, one is found. -/
theorem exists_findType?_of_descriptorAt (h : p.descriptorAt i = .ok descriptor) :
    ∃ j : UInt32, p.findType? descriptor = some j.toNat := by
  obtain ⟨s, hs, hstring⟩ := descriptorAt_eq_ok_iff.mp h
  obtain ⟨hlt, hget⟩ := List.getElem?_eq_some_iff.mp hs
  obtain ⟨n, hn⟩ : ∃ n, p.findType? descriptor = some n := by
    refine Option.isSome_iff_exists.mp (List.findIdx?_isSome.trans ?_)
    exact List.any_eq_true.mpr ⟨s, List.mem_of_getElem? hs, decide_eq_true hstring⟩
  have hfirst := (List.findIdx?_eq_some_iff_getElem.mp hn).2.2
  -- the first entry does not stand behind this one, so its position is a word too
  have hle : n ≤ i.toNat := Nat.le_of_not_lt fun hbefore =>
    hfirst i.toNat hbefore (decide_eq_true (hget ▸ hstring))
  have hword := i.toNat_lt
  exact ⟨UInt32.ofNat n, by rw [hn, UInt32.toNat_ofNat_of_lt' (Nat.lt_of_le_of_lt hle hword)]⟩

/-- No two entries of the type pool have the same descriptor. -/
def DistinctTypes (p : Pools) : Prop :=
  ∀ i j descriptor, p.descriptorAt i = .ok descriptor → p.descriptorAt j = .ok descriptor → i = j

end Pools

/-! ## Definitions and what is read of them -/

theorem StoredClass.classAt_of_lift {p : Pools} {stored : StoredClass} {k : ClassDef}
    (h : stored.lift p = .ok k) : p.classAt stored.type = .ok k.name := by
  obtain ⟨name, hname, h⟩ := bind_eq_ok.mp h
  obtain ⟨_, -, h⟩ := bind_eq_ok.mp h
  obtain ⟨_, -, h⟩ := bind_eq_ok.mp h
  obtain ⟨_, -, h⟩ := bind_eq_ok.mp h
  obtain rfl := Except.ok.inj h
  exact hname

namespace Container

variable {c : Container} {d : DexFile} {name : ClassName}

/-- Whether the definition is one of the class. -/
def defines (c : Container) (name : ClassName) (stored : StoredClass) : Bool :=
  c.pools.descriptorAt stored.type = .ok name.descriptor

/-- Whether the definition names the first entry of the type pool with the descriptor of the
class. -/
def namesFirst (c : Container) (name : ClassName) (stored : StoredClass) : Bool :=
  c.pools.findType? name.descriptor = some stored.type.toNat

theorem defines_of_namesFirst {stored : StoredClass} (h : c.namesFirst name stored = true) :
    c.defines name stored = true :=
  decide_eq_true (Pools.descriptorAt_of_findType? (of_decide_eq_true h))

/-- The first definition of the class, if there is one, names the first entry with its
descriptor. -/
def InReach (c : Container) (name : ClassName) : Prop :=
  ∀ stored, c.classes.find? (c.defines name) = some stored → c.namesFirst name stored = true

instance (c : Container) (name : ClassName) : Decidable (c.InReach name) :=
  inferInstanceAs (Decidable (∀ stored ∈ c.classes.find? (c.defines name),
    c.namesFirst name stored = true))

/-- Without repeated descriptors, a definition of the class names the first entry there is. -/
theorem namesFirst_of_defines (hdistinct : c.pools.DistinctTypes) {stored : StoredClass}
    (h : c.defines name stored = true) : c.namesFirst name stored = true := by
  have hstored := of_decide_eq_true h
  obtain ⟨j, hj⟩ := Pools.exists_findType?_of_descriptorAt hstored
  obtain rfl := hdistinct _ _ _ hstored (Pools.descriptorAt_of_findType? hj)
  exact decide_eq_true hj

/-- The lookup returns the first definition that names the first entry. -/
theorem classIndex?_eq_findIdx? (c : Container) (name : ClassName) :
    c.classIndex? name = c.classes.findIdx? (c.namesFirst name) := by
  rw [classIndex?]
  cases htype : c.pools.findType? name.descriptor with
  | none =>
    refine (List.findIdx?_eq_none_iff.mpr fun stored _ => ?_).symm
    rw [namesFirst, htype]
    rfl
  | some type =>
    refine congrArg (c.classes.findIdx? ·) (funext fun stored => ?_)
    rw [namesFirst, htype, decide_eq_decide, Option.some.injEq, eq_comm]

theorem toDexFile_eq_ok_iff :
    c.toDexFile = .ok d ↔
      List.Forall₂ (fun stored k => stored.lift c.pools = .ok k) c.classes d.classes := by
  rw [toDexFile, bind_eq_ok]
  constructor
  · rintro ⟨classes, hclasses, h⟩
    obtain rfl := Except.ok.inj h
    exact mapM_eq_ok_iff.mp hclasses
  · exact fun h => ⟨d.classes, mapM_eq_ok_iff.mpr h, rfl⟩

/-- A definition is one of the class exactly if it is read as one. -/
theorem defines_eq_of_lift {stored : StoredClass} {k : ClassDef}
    (h : stored.lift c.pools = .ok k) : c.defines name stored = decide (k.name = name) := by
  obtain ⟨hdescriptor, -⟩ := Pools.descriptorAt_of_classAt (StoredClass.classAt_of_lift h)
  rw [defines, hdescriptor, decide_eq_decide, Except.ok.injEq]
  exact ⟨ClassName.descriptor_injective, congrArg _⟩

/-- The first definition of the class is at the place of the first class of the name that is
read. -/
theorem findIdx?_defines (h : c.toDexFile = .ok d) (name : ClassName) :
    c.classes.findIdx? (c.defines name) = d.classes.findIdx? (·.name = name) :=
  findIdx?_congr ((toDexFile_eq_ok_iff.mp h).imp fun _ _ => defines_eq_of_lift)

/-- The lookup returns the first class of the name exactly if that class is in reach. -/
theorem classIndex?_eq_iff (h : c.toDexFile = .ok d) (name : ClassName) :
    c.classIndex? name = d.classes.findIdx? (·.name = name) ↔ c.InReach name := by
  rw [classIndex?_eq_findIdx?, ← findIdx?_defines h]
  exact findIdx?_eq_findIdx?_iff fun stored _ => defines_of_namesFirst

theorem inReach_of_distinctTypes (h : c.pools.DistinctTypes) (name : ClassName) :
    c.InReach name :=
  fun _ hstored => namesFirst_of_defines h (List.find?_some hstored)

/-- What the lookup returns is the place of a class of the name. -/
theorem exists_of_classIndex? (h : c.toDexFile = .ok d) {position : Nat}
    (hindex : c.classIndex? name = some position) :
    ∃ k, d.classes[position]? = some k ∧ k.name = name ∧ c.classDefAt position = .ok k := by
  have hall := toDexFile_eq_ok_iff.mp h
  rw [classIndex?_eq_findIdx?] at hindex
  obtain ⟨hlt, hfirst, -⟩ := List.findIdx?_eq_some_iff_getElem.mp hindex
  have hlt' : position < d.classes.length := hall.length_eq ▸ hlt
  have hlift : c.classes[position].lift c.pools = .ok d.classes[position] := by
    simpa using hall.get hlt hlt'
  refine ⟨d.classes[position], List.getElem?_eq_getElem hlt', ?_, ?_⟩
  · have hdefines := defines_of_namesFirst hfirst
    rw [defines_eq_of_lift hlift] at hdefines
    exact of_decide_eq_true hdefines
  · rw [classDefAt, List.getElem?_eq_getElem hlt]
    exact hlift

end Container

namespace DexFile

variable {c : Container} {d : DexFile} {bs : Bytes} {name : ClassName}

/-- Reading one class returns the class that the lookup finds. -/
theorem decode_of_classIndex? (hparse : Container.parse bs = .ok c) (hread : c.toDexFile = .ok d)
    {position : Nat} (hindex : c.classIndex? name = some position) :
    ∃ k, d.classes[position]? = some k ∧ k.name = name ∧ decode bs name = .ok ⟨[k]⟩ := by
  obtain ⟨k, hk, hname, hdefinition⟩ := Container.exists_of_classIndex? hread hindex
  refine ⟨k, hk, hname, ?_⟩
  rw [decode, hparse, ok_bind]
  simp only [hindex, hdefinition, ok_bind]

/-- Reading one class that the lookup does not find fails. -/
theorem decode_of_classIndex?_none (hparse : Container.parse bs = .ok c)
    (hindex : c.classIndex? name = none) : decode bs name = .error (.classNotFound name) := by
  rw [decode, hparse, ok_bind]
  simp only [hindex]

/-- Reading one class returns the first class of the name, if it is in reach and there is one. -/
theorem decode_of_inReach (hparse : Container.parse bs = .ok c) (hread : c.toDexFile = .ok d)
    (hreach : c.InReach name) :
    decode bs name =
      (d.class? name).elim (.error (.classNotFound name)) fun k => .ok ⟨[k]⟩ := by
  have hindex := (Container.classIndex?_eq_iff hread name).mpr hreach
  rw [class?, List.find?_eq_bind_findIdx?_getElem?, ← hindex]
  cases hposition : c.classIndex? name with
  | none => exact decode_of_classIndex?_none hparse hposition
  | some position =>
    obtain ⟨k, hk, -, hdecode⟩ := decode_of_classIndex? hparse hread hposition
    rw [hdecode, Option.bind_some, hk, Option.elim_some]

/-- In a container that can be read, what the lookup finds is a class of the name.  It is the first
one exactly if that one is in reach, and then reading the class returns it, or says that there is
none.  Where no descriptor is repeated every class is in reach. -/
theorem lookup_agrees_iff_inReach (hparse : Container.parse bs = .ok c)
    (hread : c.toDexFile = .ok d) (name : ClassName) :
    (c.classIndex? name = d.classes.findIdx? (·.name = name) ↔ c.InReach name) ∧
    (c.InReach name → decode bs name =
      (d.class? name).elim (.error (.classNotFound name)) fun k => .ok ⟨[k]⟩) ∧
    (∀ position, c.classIndex? name = some position → ∃ k,
      d.classes[position]? = some k ∧ k.name = name ∧ decode bs name = .ok ⟨[k]⟩) ∧
    (c.classIndex? name = none → decode bs name = .error (.classNotFound name)) ∧
    (c.pools.DistinctTypes → c.InReach name) :=
  ⟨Container.classIndex?_eq_iff hread name, decode_of_inReach hparse hread,
    fun _ => decode_of_classIndex? hparse hread, decode_of_classIndex?_none hparse,
    fun hdistinct => Container.inReach_of_distinctTypes hdistinct name⟩

end DexFile

/-! ## A descriptor that is repeated -/

namespace RepeatedType

/-- The first two types have the same descriptor, and the class is defined with the second of
them. -/
def container : Container where
  pools := { strings := ["LA;", "LB;"], types := [0, 0, 1], protos := [], methods := [] }
  classes := [⟨1, 1, StoredClass.noIndex, []⟩, ⟨2, 1, StoredClass.noIndex, []⟩]

/-- What is read from the container. -/
def dexFile : DexFile := ⟨[⟨⟨"A"⟩, ⟨1⟩, none, []⟩, ⟨⟨"B"⟩, ⟨1⟩, none, []⟩]⟩

theorem parse_container : Container.parse (Container.image container.bytes) = .ok container :=
  Container.parse_eq_ok_iff.mpr ⟨by decide +kernel, rfl⟩

theorem toDexFile_container : container.toDexFile = .ok dexFile := by
  decide +kernel

/-- The other class is in reach. -/
theorem lookup_agrees_iff_inReach_other :
    Container.parse (Container.image container.bytes) = .ok container ∧
      container.toDexFile = .ok dexFile ∧ container.classIndex? ⟨"B"⟩ = some 1 ∧
      DexFile.decode (Container.image container.bytes) ⟨"B"⟩ =
        .ok ⟨[⟨⟨"B"⟩, ⟨1⟩, none, []⟩]⟩ := by
  obtain ⟨hindex, hdecode, -⟩ :=
    DexFile.lookup_agrees_iff_inReach parse_container toDexFile_container ⟨"B"⟩
  have hreach : container.InReach ⟨"B"⟩ := by
    decide +kernel
  exact ⟨parse_container, toDexFile_container, hindex.mpr hreach, hdecode hreach⟩

/-- A class that is read with all others is neither found nor read by its name. -/
theorem not_lookup_agrees :
    (¬ ∀ (bs : Bytes) (c : Container) (d : DexFile) (name : ClassName),
      Container.parse bs = .ok c → c.toDexFile = .ok d →
      c.classIndex? name = d.classes.findIdx? (·.name = name)) ∧
    ¬ ∀ (bs : Bytes) (c : Container) (d : DexFile) (name : ClassName),
      Container.parse bs = .ok c → c.toDexFile = .ok d → (∃ k ∈ d.classes, k.name = name) →
      ∃ k, DexFile.decode bs name = .ok ⟨[k]⟩ := by
  have hindex : container.classIndex? ⟨"A"⟩ = none := by
    decide +kernel
  constructor
  · intro hagree
    have hfirst := hagree _ _ _ ⟨"A"⟩ parse_container toDexFile_container
    rw [hindex] at hfirst
    exact absurd hfirst (by decide +kernel)
  · intro hreads
    obtain ⟨k, hk⟩ := hreads _ _ _ ⟨"A"⟩ parse_container toDexFile_container
      ⟨_, List.mem_cons_self, rfl⟩
    rw [DexFile.decode_of_classIndex?_none parse_container hindex] at hk
    cases hk

end RepeatedType

end DexWeave
