/-
  DexWeave/Proofs/Encodable.lean --- which dex files can be stored.

  WHAT THIS FILE IS FOR.  Storing can fail for a label that is not placed, for an item that
  is missing from the pools, and for a size.  Once the labels of all bodies are placed only
  the sizes are left: `DexFile.Fits` names them, and a dex file that fits is stored.

  WHAT IS PROVED.  An image that does not exist is out of range, and then the dex file does
  not fit.  The bounds are those of the fields; the one on instructions is half of its field,
  because distances are signed.
-/
import DexWeave.Proofs.DexRoundTrip

set_option autoImplicit false

namespace DexWeave

open Fallible

/-! ## Bodies of a dex file -/

namespace DexFile

/-- The bodies of all methods. -/
def bodies (d : DexFile) : List Body := d.classes.flatMap fun c => c.methods.filterMap Method.body

theorem mem_bodies {d : DexFile} {b : Body} :
    b ∈ d.bodies ↔ ∃ c ∈ d.classes, ∃ m ∈ c.methods, m.body = some b := by
  simp [bodies]

theorem mem_instructions_iff {d : DexFile} {i : SymbolicInstruction} :
    i ∈ d.instructions ↔ ∃ b ∈ d.bodies, i ∈ instructionsOf b.lines := by
  constructor
  · intro hi
    obtain ⟨c, hc, hi⟩ := List.mem_flatMap.mp hi
    obtain ⟨m, hm, hi⟩ := List.mem_flatMap.mp hi
    rw [Method.instructions] at hi
    split at hi
    · exact absurd hi List.not_mem_nil
    · rename_i b hb
      exact ⟨b, mem_bodies.mpr ⟨c, hc, m, hm, hb⟩, hi⟩
  · rintro ⟨b, hb, hi⟩
    obtain ⟨c, hc, m, hm, hb⟩ := mem_bodies.mp hb
    exact mem_instructions hc hm hb hi

/-- The labels of all bodies are placed. -/
def LabelsPlaced (d : DexFile) : Prop := ∀ b ∈ d.bodies, DexWeave.LabelsPlaced b.lines

/-- The texts, the prototypes and the calls that are mentioned fit their fields. -/
structure EntriesFit (d : DexFile) : Prop where
  texts : ∀ s ∈ d.mentionedStrings, (Utf8.encode s).length < 4294967296
  parameters : ∀ m ∈ d.mentionedMethods, m.prototype.parameters.length < 65536
  arguments : ∀ i ∈ d.instructions, i.arguments.length < 256

/-- Every size in the dex file fits the field it is stored in. -/
structure Fits (d : DexFile) : Prop extends d.EntriesFit where
  pools : d.PoolsBelow 4294967296
  classes : d.classes.length < 4294967296
  methods : ∀ c ∈ d.classes, c.methods.length < 4294967296
  bodies : ∀ b ∈ d.bodies, (instructionsOf b.lines).length ≤ 2147483648

end DexFile

/-! ## Sizes of the stored form -/

namespace Pools.BuiltFrom

variable {p : Pools} {d : DexFile}

theorem fits (h : p.BuiltFrom d) (hd : d.Fits) : p.Fits where
  strings_length := by
    rw [h.strings, OrderedSet.length_ofList]
    exact hd.pools.strings
  strings := by
    intro s hs
    rw [h.strings, OrderedSet.mem_ofList] at hs
    exact hd.texts s hs
  types_length := by
    rw [length_of_mapM h.types, OrderedSet.length_ofList]
    exact hd.pools.types
  protos_length := by
    obtain ⟨stored, hstored, hprotos⟩ := h.protos
    rw [hprotos, OrderedSet.length_ofList]
    exact Nat.lt_of_le_of_lt (length_dedup_le_of_mapM hstored) hd.pools.protos
  protos := by
    intro m hm
    obtain ⟨stored, hstored, hprotos⟩ := h.protos
    rw [hprotos, OrderedSet.mem_ofList] at hm
    obtain ⟨proto, hproto, hm⟩ := exists_of_mem_result hstored hm
    obtain ⟨r, hr, rfl⟩ := List.mem_map.mp hproto
    obtain ⟨result, -, hm⟩ := bind_eq_ok.mp hm
    obtain ⟨parameters, hparameters, hm⟩ := bind_eq_ok.mp hm
    obtain rfl := Except.ok.inj hm
    rw [StoredProto.Fits, length_of_mapM hparameters]
    exact hd.parameters r hr
  methods_length := by
    obtain ⟨stored, hstored, hmethods⟩ := h.methods
    rw [hmethods, OrderedSet.length_ofList]
    exact Nat.lt_of_le_of_lt (length_dedup_le_of_mapM hstored) hd.pools.methods

/-- Everything an instruction of the dex file refers to is in the pools. -/
theorem indexes (h : p.BuiltFrom d) {i : SymbolicInstruction} (hi : i ∈ d.instructions) :
    p.Indexes i where
  text := fun _ hs => h.exists_indexOfString (DexFile.text?_mem_mentionedStrings hi hs)
  type := fun _ ht => h.exists_indexOfType (DexFile.type?_mem_mentionedDescriptors hi ht)
  method := fun _ hm => h.exists_indexOfMethod (DexFile.method?_mem_mentionedMethods hi hm)

/-- So is every super class. -/
theorem exists_superIndex (h : p.BuiltFrom d) {c : ClassDef} (hc : c ∈ d.classes) :
    ∃ super, superIndex p c.super = .ok super := by
  cases hs : c.super with
  | none => exact ⟨_, rfl⟩
  | some s =>
    exact h.exists_indexOfType
      (DexFile.class_mem_mentionedDescriptors (DexFile.super_mem_definedClasses hc hs))

end Pools.BuiltFrom

/-- The stored instructions of a body are those of its lines, with the same arguments. -/
theorem arguments_of_lowerLines {p : Pools} {lines : List Line}
    {stored : List StoredInstruction} (h : lowerLines p lines = .ok stored) :
    stored.length = (instructionsOf lines).length ∧
      ∀ j ∈ stored, ∃ i ∈ instructionsOf lines, j.arguments = i.arguments := by
  have hstored := storeResolved_of_lowerLines h
  have hlen := length_of_mapM hstored
  rw [List.length_zipIdx, resolved, List.length_map] at hlen
  refine ⟨hlen, fun j hj => ?_⟩
  obtain ⟨⟨r, position⟩, hr, hj⟩ := exists_of_mem_result hstored hj
  obtain ⟨i, hi, rfl⟩ := List.mem_map.mp (List.fst_mem_of_mem_zipIdx hr)
  exact ⟨i, hi, (Instruction.arguments_of_traverse hj).trans (Instruction.arguments_mapTarget _ i)⟩

/-- The instructions of the body can be counted, and so can the arguments of each. -/
structure Body.Fits (b : Body) : Prop where
  length : (instructionsOf b.lines).length < 4294967296
  arguments : ∀ i ∈ instructionsOf b.lines, i.arguments.length < 256

theorem Body.fits_of_lower {p : Pools} {b : Body} {stored : StoredBody}
    (h : b.lower p = .ok stored) (hb : b.Fits) : stored.Fits := by
  obtain ⟨instructions, hlines, rfl⟩ := lower_eq_ok_iff.mp h
  obtain ⟨hlength, hmem⟩ := arguments_of_lowerLines hlines
  refine ⟨by rw [hlength]; exact hb.length, fun j hj => ?_⟩
  obtain ⟨i, hi, hij⟩ := hmem j hj
  rw [StoredInstruction.Fits, hij]
  exact hb.arguments i hi

theorem Method.fits_of_lower {p : Pools} {m : Method} {stored : StoredMethod}
    (h : m.lower p = .ok stored) (hm : ∀ b, m.body = some b → b.Fits) : stored.Fits := by
  obtain ⟨ref, body, -, hbody, rfl⟩ := lower_eq_ok_iff.mp h
  obtain ⟨mref, flags, mbody⟩ := m
  cases hbody with
  | none => exact fun _ hstored => by cases hstored
  | some hlower =>
    rintro _ ⟨⟩
    exact Body.fits_of_lower hlower (hm _ rfl)

theorem ClassDef.fits_of_lower {p : Pools} {c : ClassDef} {stored : StoredClass}
    (h : c.lower p = .ok stored) (hlen : c.methods.length < 4294967296)
    (hc : ∀ m ∈ c.methods, ∀ b, m.body = some b → b.Fits) : stored.Fits := by
  obtain ⟨type, super, methods, -, -, hmethods, rfl⟩ := lower_eq_ok_iff.mp h
  refine ⟨by rw [length_of_mapM hmethods]; exact hlen, fun stored hstored => ?_⟩
  obtain ⟨m, hm, hlower⟩ := exists_of_mem_result hmethods hstored
  exact Method.fits_of_lower hlower (hc m hm)

theorem DexFile.Fits.body {d : DexFile} (h : d.Fits) {c : ClassDef} (hc : c ∈ d.classes)
    {m : Method} (hm : m ∈ c.methods) {b : Body} (hb : m.body = some b) : b.Fits where
  length := by
    have hlen := h.bodies b (DexFile.mem_bodies.mpr ⟨c, hc, m, hm, hb⟩)
    omega
  arguments := fun i hi => h.arguments i (DexFile.mem_instructions hc hm hb hi)

/-- The container of a dex file that fits fits too. -/
theorem Container.fits_of_ofDexFile {d : DexFile} {c : Container} (h : ofDexFile d = .ok c)
    (hd : d.Fits) : c.Fits := by
  obtain ⟨hpools, hclasses⟩ := ofDexFile_eq_ok_iff.mp h
  refine ⟨(Pools.builtFrom_of_ofDexFile hpools).fits hd, ?_, fun stored hstored => ?_⟩
  · rw [length_of_mapM hclasses]
    exact hd.classes
  · obtain ⟨k, hk, hlower⟩ := exists_of_mem_result hclasses hstored
    exact ClassDef.fits_of_lower hlower (hd.methods k hk) fun m hm b hb => hd.body hk hm hb

/-! ## Only sizes are left -/

section FailsOnly

variable {d : DexFile} {p : Pools}

theorem failsOnly_lowerMethod (hpools : p.BuiltFrom d) (hlabels : d.LabelsPlaced) {c : ClassDef}
    (hc : c ∈ d.classes) {m : Method} (hm : m ∈ c.methods) :
    FailsOnly (m.lower p) (.error .outOfRange) d.Fits := by
  rw [Method.lower_eq]
  have hbody : FailsOnly (Body.lowerIfAny p m.body) (.error .outOfRange) d.Fits := by
    cases hb : m.body with
    | none => exact .of_ok rfl
    | some b =>
      have hmem := DexFile.mem_bodies.mpr ⟨c, hc, m, hm, hb⟩
      have hlines := failsOnly_lowerLines (p := p) (hlabels b hmem) fun i hi =>
        hpools.indexes (DexFile.mem_instructions hc hm hb hi)
      exact ((hlines.mono fun hfits => hfits.bodies b hmem).bind fun _ _ => .of_ok rfl).map some
  obtain ⟨ref, href⟩ := hpools.exists_indexOfMethod (DexFile.ref_mem_mentionedMethods hc hm)
  exact hbody.bind fun _ _ => (FailsOnly.of_ok href).bind fun _ _ => .of_ok rfl

theorem failsOnly_lowerClass (hpools : p.BuiltFrom d) (hlabels : d.LabelsPlaced) {c : ClassDef}
    (hc : c ∈ d.classes) : FailsOnly (c.lower p) (.error .outOfRange) d.Fits := by
  obtain ⟨type, htype⟩ := hpools.exists_indexOfType
    (DexFile.class_mem_mentionedDescriptors (DexFile.name_mem_definedClasses hc))
  obtain ⟨super, hsuper⟩ := hpools.exists_superIndex hc
  refine (FailsOnly.mapM fun m hm => failsOnly_lowerMethod hpools hlabels hc hm).bind
    fun _ _ => ?_
  exact (FailsOnly.of_ok htype).bind fun _ _ =>
    (FailsOnly.of_ok hsuper).bind fun _ _ => .of_ok rfl

/-- A dex file with placed labels has a container, or it does not fit. -/
theorem failsOnly_container (hlabels : d.LabelsPlaced) :
    FailsOnly (Container.ofDexFile d) (.error .outOfRange) d.Fits := by
  refine ((Pools.failsOnly_ofDexFile d).mono DexFile.Fits.pools).bind fun p hp => ?_
  exact (FailsOnly.mapM fun c hc =>
    failsOnly_lowerClass (Pools.builtFrom_of_ofDexFile hp) hlabels hc).bind fun _ _ => .of_ok rfl

/-- A dex file with placed labels has an image, or it does not fit. -/
theorem failsOnly_image (hlabels : d.LabelsPlaced) :
    FailsOnly d.image (.error .outOfRange) d.Fits := by
  refine (failsOnly_container hlabels).bind fun c hc => ?_
  cases hrender : c.render? with
  | some bytes => exact .of_ok rfl
  | none =>
    intro e he
    refine ⟨(Except.error.inj he).symm, fun hfits => ?_⟩
    have hsome := Container.render?_eq_some_iff.mpr ⟨Container.fits_of_ofDexFile hc hfits, rfl⟩
    rw [hrender] at hsome
    cases hsome

end FailsOnly

end DexWeave
