/-
  DexWeave/Proofs/Reencode.lean --- containers read and stored again.

  WHAT THIS FILE IS FOR.  Storing what was read from a container returns a container of the
  same dex file, whatever the first container looked like, and from then on nothing
  changes any more.  A container that was itself stored is returned byte for byte.

  WHY.  A dex file that was read has canonical labels, so reading it once more returns it
  unchanged; and a dex file and its canonical form mention the same things and have the
  same instructions once their labels are resolved, so they have the same image.
-/
import DexWeave.Proofs.ReadFrom

set_option autoImplicit false

namespace DexWeave

open Fallible

/-! ## Canonical labels do not change the image -/

/-- What an instruction refers to besides its target survives choosing labels anew. -/
theorem filterMap_canonicalLines {α : Type} {f : SymbolicInstruction → Option α}
    (hf : ∀ (rename : Label → Label) i, f (i.mapTarget rename) = f i) (lines : List Line) :
    (instructionsOf (canonicalLines lines)).filterMap f = (instructionsOf lines).filterMap f := by
  rw [instructionsOf_canonicalLines, List.filterMap_map]
  exact List.filterMap_congr fun i _ => hf _ i

namespace DexFile

theorem filterMap_instructions_canonical {α : Type} {f : SymbolicInstruction → Option α}
    (hf : ∀ (rename : Label → Label) i, f (i.mapTarget rename) = f i) (d : DexFile) :
    d.canonical.instructions.filterMap f = d.instructions.filterMap f := by
  have hmethod : ∀ m : Method,
      m.canonical.instructions.filterMap f = m.instructions.filterMap f := by
    rintro ⟨ref, flags, _ | b⟩
    · rfl
    · exact filterMap_canonicalLines hf b.lines
  simp only [instructions, canonical, ClassDef.canonical, List.filterMap_flatMap,
    List.flatMap_map, hmethod]

theorem declaredMethods_canonical (d : DexFile) :
    d.canonical.declaredMethods = d.declaredMethods := by
  simp only [declaredMethods, canonical, ClassDef.canonical, List.flatMap_map, List.map_map]
  rfl

theorem definedClasses_canonical (d : DexFile) :
    d.canonical.definedClasses = d.definedClasses := by
  simp only [definedClasses, canonical, ClassDef.canonical, List.flatMap_map]

theorem mentionedMethods_canonical (d : DexFile) :
    d.canonical.mentionedMethods = d.mentionedMethods := by
  rw [mentionedMethods, declaredMethods_canonical,
    filterMap_instructions_canonical (fun rename i => Instruction.method?_mapTarget rename i),
    ← mentionedMethods]

theorem mentionedDescriptors_canonical (d : DexFile) :
    d.canonical.mentionedDescriptors = d.mentionedDescriptors := by
  rw [mentionedDescriptors, definedClasses_canonical, mentionedMethods_canonical,
    filterMap_instructions_canonical (fun rename i => Instruction.type?_mapTarget rename i),
    ← mentionedDescriptors]

theorem mentionedStrings_canonical (d : DexFile) :
    d.canonical.mentionedStrings = d.mentionedStrings := by
  rw [mentionedStrings, mentionedMethods_canonical, mentionedDescriptors_canonical,
    filterMap_instructions_canonical (fun rename i => Instruction.text?_mapTarget rename i),
    ← mentionedStrings]

end DexFile

theorem Pools.ofDexFile_canonical (d : DexFile) : ofDexFile d.canonical = ofDexFile d := by
  rw [ofDexFile, DexFile.mentionedStrings_canonical, DexFile.mentionedDescriptors_canonical,
    DexFile.mentionedMethods_canonical, ← ofDexFile]

theorem Body.lower_canonical {p : Pools} {b : Body} {stored : StoredBody}
    (h : b.lower p = .ok stored) : b.canonical.lower p = .ok stored := by
  obtain ⟨instructions, hlines, hstored⟩ := lower_eq_ok_iff.mp h
  exact lower_eq_ok_iff.mpr ⟨instructions, lowerLines_canonicalLines hlines, hstored⟩

theorem Method.lower_canonical {p : Pools} {m : Method} {stored : StoredMethod}
    (h : m.lower p = .ok stored) : m.canonical.lower p = .ok stored := by
  obtain ⟨ref, body, href, hbody, hstored⟩ := lower_eq_ok_iff.mp h
  refine lower_eq_ok_iff.mpr ⟨ref, body, href, ?_, hstored⟩
  obtain ⟨mref, flags, mbody⟩ := m
  cases hbody with
  | none => exact .none
  | some hlower => exact .some (Body.lower_canonical hlower)

theorem ClassDef.lower_canonical {p : Pools} {c : ClassDef} {stored : StoredClass}
    (h : c.lower p = .ok stored) : c.canonical.lower p = .ok stored := by
  obtain ⟨type, super, methods, htype, hsuper, hmethods, hstored⟩ := lower_eq_ok_iff.mp h
  refine lower_eq_ok_iff.mpr ⟨type, super, methods, htype, hsuper, ?_, hstored⟩
  rw [mapM_eq_ok_iff, ClassDef.canonical, List.forall₂_map_left_iff]
  exact (mapM_eq_ok_iff.mp hmethods).imp fun _ _ => Method.lower_canonical

theorem Container.ofDexFile_canonical {d : DexFile} {c : Container} (h : ofDexFile d = .ok c) :
    ofDexFile d.canonical = .ok c := by
  obtain ⟨hpools, hclasses⟩ := ofDexFile_eq_ok_iff.mp h
  refine ofDexFile_eq_ok_iff.mpr ⟨by rw [Pools.ofDexFile_canonical, hpools], ?_⟩
  rw [mapM_eq_ok_iff, DexFile.canonical, List.forall₂_map_left_iff]
  exact (mapM_eq_ok_iff.mp hclasses).imp fun _ _ => ClassDef.lower_canonical

/-- A dex file that is stored has the image of its canonical form. -/
theorem DexFile.image_canonical {d : DexFile} {bytes : Bytes} (h : d.image = .ok bytes) :
    d.canonical.image = .ok bytes := by
  obtain ⟨c, hc, hrender⟩ := image_eq_ok_iff.mp h
  exact image_eq_ok_iff.mpr ⟨c, Container.ofDexFile_canonical hc, hrender⟩

/-! ## Canonical dex files are read as they were -/

namespace DexFile

variable {d : DexFile} {bytes : Bytes}

theorem canonical_eq_self (h : ∀ b ∈ d.bodies, IsCanonical b.lines) : d.canonical = d := by
  have hmethod : ∀ c ∈ d.classes, ∀ m ∈ c.methods, m.canonical = m := by
    rintro c hc ⟨ref, flags, _ | b⟩ hm
    · rfl
    · have hb := h b (mem_bodies.mpr ⟨c, hc, _, hm, rfl⟩)
      rw [Method.canonical, Option.map_some, Body.canonical, hb.canonicalLines_eq]
  have hclass : ∀ c ∈ d.classes, c.canonical = c := by
    intro c hc
    rw [ClassDef.canonical, List.map_congr_left (hmethod c hc), List.map_id']
  rw [canonical, List.map_congr_left hclass, List.map_id']

/-- A canonical dex file that is readable comes back as it was. -/
theorem parse_image (h : d.image = .ok bytes) (hreadable : d.Readable)
    (hcanonical : ∀ b ∈ d.bodies, IsCanonical b.lines) :
    ∃ c, Container.parse bytes = .ok c ∧ c.toDexFile = .ok d := by
  obtain ⟨c, hc, hrender⟩ := image_eq_ok_iff.mp h
  obtain ⟨hfits, rfl⟩ := Container.render?_eq_some_iff.mp hrender
  have hreturns := Container.returnsWhen_toDexFile hc hfits.pools.types_length
  rw [canonical_eq_self hcanonical] at hreturns
  exact ⟨c, Container.parse_eq_ok_iff.mpr ⟨hfits, rfl⟩, hreturns.eq_ok hreadable⟩

/-- Reading the one definition of a dex file that was stored returns it with canonical labels, if it
is readable. -/
theorem returnsWhen_decode_image {k : ClassDef} (h : image ⟨[k]⟩ = .ok bytes) :
    ReturnsWhen (decode bytes k.name) (Readable ⟨[k]⟩) (canonical ⟨[k]⟩) := by
  obtain ⟨c, hc, hrender⟩ := image_eq_ok_iff.mp h
  obtain ⟨hfits, rfl⟩ := Container.render?_eq_some_iff.mp hrender
  obtain ⟨-, hclasses⟩ := Container.ofDexFile_eq_ok_iff.mp hc
  obtain ⟨stored, _, hlower, hnil, hstored⟩ :=
    List.forall₂_cons_left_iff.mp (mapM_eq_ok_iff.mp hclasses)
  rw [List.forall₂_nil_left_iff.mp hnil] at hstored
  have hindex : c.classIndex? k.name = some 0 := by
    rw [Container.classIndex?_eq hc (name_mem_definedClasses List.mem_cons_self)]
    simp
  have hdefinition : c.classDefAt 0 = stored.lift c.pools := by
    rw [Container.classDefAt, hstored]
    rfl
  rw [decode, Container.parse_eq_ok_iff.mpr ⟨hfits, rfl⟩, ok_bind]
  simp only [hindex, hdefinition]
  refine ((ClassDef.returnsWhen_lift hfits.pools.types_length hlower).bind_ok
    (fun k => DexFile.mk [k])).congr ?_
  rw [readable_iff, List.forall_mem_singleton]

/-- So does its one definition, if it has just one. -/
theorem decode_image {k : ClassDef} (h : image ⟨[k]⟩ = .ok bytes)
    (hreadable : Readable ⟨[k]⟩) (hcanonical : ∀ b ∈ bodies ⟨[k]⟩, IsCanonical b.lines) :
    decode bytes k.name = .ok ⟨[k]⟩ := by
  have hreturns := returnsWhen_decode_image h
  rw [canonical_eq_self hcanonical] at hreturns
  exact hreturns.eq_ok hreadable

/-! ## Reading and storing again -/

/-- A dex file read from any container is stored, unless a body is too long for distances.  The
new bytes are read as the same dex file and are stored as the same bytes from then on; they are the
old ones if those were stored from a dex file. -/
theorem encode_of_parse {bs : Bytes} {c : Container} {d : DexFile}
    (hparse : Container.parse bs = .ok c) (hread : c.toDexFile = .ok d)
    (hbodies : ∀ b ∈ d.bodies, (instructionsOf b.lines).length ≤ 2147483648) :
    ∃ bytes, d.encode Allocator.heap = .ok bytes ∧
      (∃ c', Container.parse bytes = .ok c' ∧ c'.toDexFile = .ok d) ∧
      (∀ c' d', Container.parse bytes = .ok c' → c'.toDexFile = .ok d' →
        d'.encode Allocator.heap = .ok bytes) ∧
      ∀ d₀ : DexFile, d₀.encode Allocator.heap = .ok bs → bytes = bs := by
  have hfrom := readFrom_of_toDexFile hparse hread
  obtain ⟨bytes, himage⟩ :=
    (failsOnly_image hfrom.labelsPlaced).exists_ok (hfrom.fits_of_bodies hbodies)
  have hencode : ∀ d : DexFile, d.encode Allocator.heap = d.image :=
    encode_eq_image Allocator.heap_exact
  obtain ⟨c', hparse', hread'⟩ :=
    parse_image himage hfrom.readable fun b hb => hfrom.isCanonical hb
  refine ⟨bytes, by rw [hencode, himage], ⟨c', hparse', hread'⟩, fun c'' d' hc'' hd' => ?_,
    fun d₀ hd₀ => ?_⟩
  · obtain rfl := Except.ok.inj (hparse'.symm.trans hc'')
    obtain rfl := Except.ok.inj (hread'.symm.trans hd')
    rw [hencode, himage]
  · rw [hencode] at hd₀
    obtain ⟨c₀, hc₀, hrender⟩ := image_eq_ok_iff.mp hd₀
    obtain ⟨hfits, rfl⟩ := Container.render?_eq_some_iff.mp hrender
    have hparse₀ := Container.parse_eq_ok_iff.mpr ⟨hfits, rfl⟩
    obtain rfl := Except.ok.inj (hparse₀.symm.trans hparse)
    have hreturns := Container.returnsWhen_toDexFile hc₀ hfits.pools.types_length
    obtain ⟨-, rfl⟩ := (hreturns d).mp hread
    exact Except.ok.inj (himage.symm.trans (image_canonical hd₀))

/-- A container that was not stored here: its strings are not in order, one of them occurs twice,
one is not used, and so with types and prototypes. -/
def unsortedContainer : Container where
  pools :=
    { strings := ["run", "LA;", "V", "unused", "LA;"], types := [1, 2, 4]
      protos := [⟨1, []⟩, ⟨1, []⟩], methods := [⟨2, 0, 1⟩] }
  classes :=
    [⟨0, 1, StoredClass.noIndex, [⟨0, 9, some ⟨1, 0, 0, [.nop, .goto (-1), .returnVoid]⟩⟩]⟩]

/-- What is read from that container. -/
def unsorted : DexFile :=
  ⟨[{ name := ⟨"A"⟩, flags := ⟨1⟩, super := none
      methods := [{
        ref := ⟨⟨"A"⟩, "run", ⟨[], .void⟩⟩, flags := ⟨9⟩
        body := some ⟨1, 0, 0, [.label ⟨0⟩, .instruction .nop, .instruction (.goto ⟨0⟩),
          .instruction .returnVoid]⟩ }] }]⟩

theorem parse_unsortedContainer :
    Container.parse (Container.image unsortedContainer.bytes) = .ok unsortedContainer :=
  Container.parse_eq_ok_iff.mpr ⟨by decide +kernel, rfl⟩

theorem encode_of_parse_unsorted :
    ∃ bytes, unsorted.encode Allocator.heap = .ok bytes ∧
      ∃ c, Container.parse bytes = .ok c ∧ c.toDexFile = .ok unsorted := by
  obtain ⟨bytes, hbytes, hread, -⟩ := encode_of_parse parse_unsortedContainer
    (by decide +kernel : unsortedContainer.toDexFile = .ok unsorted) (by decide +kernel)
  exact ⟨bytes, hbytes, hread⟩

end DexFile

end DexWeave
