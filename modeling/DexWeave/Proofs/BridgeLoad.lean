/-
  DexWeave/Proofs/BridgeLoad.lean --- a class read, transformed and stored while it loads.

  WHAT THIS FILE IS FOR.  A bridge answers the load of its class by reading it, applying
  its transforms and storing the result.  The theorem here describes the answer from end to
  end, for any bytes and any transforms: what is returned is read as exactly the
  transformed class, or a size is out of range and the machine keeps its bytes.

  WHAT CANNOT HAPPEN.  Labels that are not placed and items that are missing from the pools
  never occur, with no condition on the transforms: the labels that were read are
  canonical, weaving keeps them so, and the pools are built from all that is mentioned.
-/
import DexWeave.Instrument.Bridge
import DexWeave.Proofs.Reencode
import DexWeave.Proofs.TransformRun

set_option autoImplicit false

namespace DexWeave

open Fallible

namespace DexFile

variable {bs : Bytes} {name : ClassName} {d : DexFile} {ts : List Transform}

/-- What was read of one class is one class of that name, and stays so. -/
theorem exists_eq_singleton_of_decode (h : decode bs name = .ok d) (ts : List Transform) :
    ∃ k : ClassDef, Transform.applyAll ts d = ⟨[k]⟩ ∧ k.name = name := by
  obtain ⟨c, k, -, rfl, hname, -⟩ := readFrom_of_decode h
  have hnames := Transform.names_applyAll ts ⟨[k]⟩
  cases hd : Transform.applyAll ts ⟨[k]⟩ with
  | mk classes =>
    rw [hd] at hnames
    obtain ⟨k', rfl⟩ : ∃ k', classes = [k'] :=
      List.length_eq_one_iff.mp (by simpa using congrArg List.length hnames)
    exact ⟨k', rfl, (List.singleton_inj.mp hnames).trans hname⟩

theorem isCanonical_applyAll_of_decode (h : decode bs name = .ok d) (ts : List Transform) :
    ∀ b ∈ (Transform.applyAll ts d).bodies, IsCanonical b.lines := by
  obtain ⟨c, k, -, -, -, hfrom⟩ := readFrom_of_decode h
  exact Transform.isCanonical_applyAll ts fun b hb => hfrom.isCanonical hb

/-- A class that was read and transformed fits, unless a transform overflows on the way. -/
theorem fits_applyAll_of_decode (h : decode bs name = .ok d)
    (hbodies : ∀ b ∈ (Transform.applyAll ts d).bodies,
      (instructionsOf b.lines).length < 2147483648)
    (hpools : (Transform.applyAll ts d).PoolsBelow 2147483648) :
    (Transform.applyAll ts d).Fits ∨ Transform.OverflowsOnTheWay ts d := by
  obtain ⟨c, k, -, -, -, hfrom⟩ := readFrom_of_decode h
  obtain ⟨k', hk', -⟩ := exists_eq_singleton_of_decode h ts
  refine (Transform.entriesFit_applyAll hfrom.entriesFit).imp_left fun hentries => ?_
  refine ⟨hentries, hpools.mono (by decide), ?_, ?_, fun b hb => Nat.le_of_lt (hbodies b hb)⟩
  · rw [hk']
    exact (by decide : 1 < 4294967296)
  · exact Transform.length_methods_applyAll ts fun k hk => hfrom.length_methods_lt hk

theorem readable_applyAll_of_decode (h : decode bs name = .ok d) (hts : ∀ t ∈ ts, t.Named)
    (hname : ';' ∉ name.text.toList) : (Transform.applyAll ts d).Readable := by
  obtain ⟨c, k, -, rfl, rfl, hfrom⟩ := readFrom_of_decode h
  refine Transform.readable_applyAll hts (fun k' hk' => ?_) hfrom.readable
  rw [List.mem_singleton.mp hk']
  exact hname

end DexFile

/-- What was read of a class is transformed and read again as what it was transformed to, if that
can be stored. -/
theorem exists_transformClass_of_decode {bytes : Bytes} {c : ClassName} {d : DexFile}
    {ts : List Transform}
    (hdecode : DexFile.decode bytes c = .ok d) (hts : ∀ t ∈ ts, t.Named)
    (hname : ';' ∉ c.text.toList) (himage : (Transform.applyAll ts d).image.isOk = true) :
    ∃ new, transformClass c ts Allocator.heap bytes = .ok new ∧
      DexFile.decode new c = .ok (Transform.applyAll ts d) := by
  obtain ⟨new, hnew⟩ := exists_ok_of_isOk himage
  have hreadable := DexFile.readable_applyAll_of_decode hdecode hts hname
  have hcanonical := DexFile.isCanonical_applyAll_of_decode hdecode ts
  obtain ⟨k, hk, rfl⟩ := DexFile.exists_eq_singleton_of_decode hdecode ts
  refine ⟨new, ?_, ?_⟩
  · rw [transformClass, hdecode]
    simp only [DexFile.encode_eq_image Allocator.heap_exact, hnew]
  · rw [hk] at hnew hreadable hcanonical ⊢
    exact DexFile.decode_image hnew hreadable hcanonical

namespace Bridge

/-- The load of the own class, which can be read, answers what the transformed class is stored
as. -/
theorem onLoad_of_decode {allocate : Allocator} (hallocate : allocate.Exact) (bridge : Bridge)
    (outcome : BridgeOutcome) {bs : Bytes} {d : DexFile}
    (h : DexFile.decode bs bridge.name = .ok d) :
    bridge.onLoad allocate outcome ⟨bridge.name, bs⟩ =
      match (Transform.applyAll bridge.transforms d).image with
      | .ok bytes => (some bytes, .replaced bytes)
      | .error e => (none, .failed (.ofEncodeFailure e)) := by
  rw [onLoad, if_pos rfl, transformClass, h]
  simp only [DexFile.encode_eq_image hallocate]
  cases (Transform.applyAll bridge.transforms d).image <;> rfl

/-- The load of the own class: a class that cannot be read keeps its bytes.  Otherwise it gets
bytes, or a size is out of range.  If the hooks and the types of receivers can be named and the
counts stay in their bounds, the bytes are read as exactly the transformed class, and a size is
out of range only if a transform on the way inserted the entry that is. -/
theorem onLoad_own {allocate : Allocator} (hallocate : allocate.Exact) (bridge : Bridge)
    (outcome : BridgeOutcome) (bs : Bytes) :
    (∀ e, DexFile.decode bs bridge.name = .error e →
      bridge.onLoad allocate outcome ⟨bridge.name, bs⟩ = (none, .failed (.decode e))) ∧
    ∀ d₀ d, DexFile.decode bs bridge.name = .ok d₀ →
      d = Transform.applyAll bridge.transforms d₀ →
      ((∃ bytes, bridge.onLoad allocate outcome ⟨bridge.name, bs⟩ = (some bytes, .replaced bytes)) ∨
        bridge.onLoad allocate outcome ⟨bridge.name, bs⟩ =
          (none, .failed (.encode .outOfRange))) ∧
      ((∀ t ∈ bridge.transforms, t.Named) → ';' ∉ bridge.name.text.toList →
        (∀ b ∈ d.bodies, (instructionsOf b.lines).length < 2147483648) →
        d.PoolsBelow 2147483648 →
        (∃ bytes, bridge.onLoad allocate outcome ⟨bridge.name, bs⟩ =
          (some bytes, .replaced bytes) ∧ DexFile.decode bytes bridge.name = .ok d) ∨
        (bridge.onLoad allocate outcome ⟨bridge.name, bs⟩ =
          (none, .failed (.encode .outOfRange)) ∧
          Transform.OverflowsOnTheWay bridge.transforms d₀)) := by
  constructor
  · intro e he
    rw [onLoad, if_pos rfl, transformClass, he]
  rintro d₀ d hd₀ rfl
  have hcanonical := DexFile.isCanonical_applyAll_of_decode hd₀ bridge.transforms
  have hfails := failsOnly_image fun b hb => (hcanonical b hb).labelsPlaced
  rw [onLoad_of_decode hallocate bridge outcome hd₀]
  cases himage : (Transform.applyAll bridge.transforms d₀).image with
  | error e =>
    obtain ⟨rfl, hfits⟩ := hfails e himage
    refine ⟨.inr rfl, fun _ _ hbodies hpools => .inr ⟨rfl, ?_⟩⟩
    exact (DexFile.fits_applyAll_of_decode hd₀ hbodies hpools).resolve_left hfits
  | ok bytes =>
    refine ⟨.inl ⟨bytes, rfl⟩, fun hts hname _ _ => .inl ⟨bytes, rfl, ?_⟩⟩
    have hreadable := DexFile.readable_applyAll_of_decode hd₀ hts hname
    obtain ⟨k, hk, hkname⟩ := DexFile.exists_eq_singleton_of_decode hd₀ bridge.transforms
    rw [hk] at himage hreadable hcanonical ⊢
    rw [← hkname]
    exact DexFile.decode_image himage hreadable hcanonical

/-- A bridge with a hook on entry and one on exit. -/
def twoHooks : Bridge where
  name := ⟨"A"⟩
  transforms :=
    [⟨⟨⟨"A"⟩, "run", ⟨[], .void⟩⟩, .entry false, ⟨⟨"Hooks"⟩, "enter"⟩⟩,
     ⟨⟨⟨"A"⟩, "run", ⟨[], .void⟩⟩, .exit, ⟨⟨"Hooks"⟩, "leave"⟩⟩]

theorem onLoad_own_twoHooks :
    ∃ bytes, twoHooks.onLoad Allocator.heap .notReached
        ⟨⟨"A"⟩, Container.image DexFile.unsortedContainer.bytes⟩ = (some bytes, .replaced bytes) ∧
      DexFile.decode bytes ⟨"A"⟩ =
        .ok (Transform.applyAll twoHooks.transforms DexFile.unsorted) := by
  have hread : DexFile.decode (Container.image DexFile.unsortedContainer.bytes) ⟨"A"⟩ =
      .ok DexFile.unsorted := by
    rw [DexFile.decode, DexFile.parse_unsortedContainer]
    decide +kernel
  have hnamed : ∀ t ∈ twoHooks.transforms, t.Named := by
    intro t ht
    rcases List.mem_cons.mp ht with rfl | ht
    · exact ⟨by decide, fun _ _ haction => (by cases haction)⟩
    · rw [List.mem_singleton.mp ht]
      exact ⟨by decide, fun _ _ haction => (by cases haction)⟩
  obtain ⟨-, hload⟩ := onLoad_own Allocator.heap_exact twoHooks .notReached
    (Container.image DexFile.unsortedContainer.bytes)
  obtain ⟨-, hanswer⟩ := hload _ _ hread rfl
  rcases hanswer hnamed (by decide) (by decide +kernel) (by decide +kernel) with h | ⟨h, -⟩
  · exact h
  · obtain ⟨bytes, hbytes⟩ : ∃ bytes, (Transform.applyAll twoHooks.transforms
        DexFile.unsorted).image = .ok bytes :=
      exists_ok_of_isOk (by decide +kernel)
    rw [onLoad_of_decode Allocator.heap_exact twoHooks .notReached hread, hbytes] at h
    cases congrArg Prod.fst h

end Bridge

end DexWeave
