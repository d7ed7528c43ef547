/-
  DexWeave/Proofs/EncodeOutcome.lean --- how storing a dex file ends.

  WHAT THIS FILE IS FOR.  Storing goes through three phases, each with faults of its own:
  labels become distances, counts are written into their fields, and memory is asked for.
  For dex files with fewer pool entries and instructions than distances can span, the file
  says how storing ends, in terms of the dex file and the answer of the allocator.

  THE POOLS.  Every lookup finds its item, so no fault is one of the pools.

  SIZES.  A pool and a body are bounded by assumption.  What is not bounded by that are the
  parameters of a prototype, the arguments of a call, the bytes of a text, and how many
  classes there are and methods in them; each has a field of its own.
-/
import DexWeave.Proofs.CanonicalPools
import DexWeave.Proofs.LabelFaults

set_option autoImplicit false

namespace DexWeave

open Fallible

/-! ## Sizes -/

namespace DexFile

/-- A list is longer than the field for its length allows. -/
inductive Overlong (d : DexFile) : Prop where
  | parameters (m : MethodRef) (hm : d.MentionsMethod m)
    (h : 65535 < m.prototype.parameters.length)
  | arguments (kind : InvokeKind) (m : MethodRef) (args : List Register)
    (hi : .invoke kind m args ∈ d.instructions) (h : 255 < args.length)

/-- A text, the classes or the methods of a class are too many to be counted with 32 bits. -/
inductive Oversized (d : DexFile) : Prop where
  | text (s : String) (hs : d.MentionsString s) (h : 4294967296 ≤ (Utf8.encode s).length)
  | classes (h : 4294967296 ≤ d.classes.length)
  | methods (c : ClassDef) (hc : c ∈ d.classes) (h : 4294967296 ≤ c.methods.length)

variable {d : DexFile}

theorem entriesFit_of_not_overlong (hlists : ¬ d.Overlong) (hcounts : ¬ d.Oversized) :
    d.EntriesFit where
  texts := by
    intro s hs
    by_contra hlen
    exact hcounts (.text s (mem_mentionedStrings_iff.mp hs) (Nat.not_lt.mp hlen))
  parameters := by
    intro m hm
    by_contra hlen
    exact hlists (.parameters m (mem_mentionedMethods_iff.mp hm) (by omega))
  arguments := by
    intro i hi
    rcases i.arguments_cases with hnone | ⟨kind, m, hinvoke⟩
    · rw [hnone]
      decide
    · by_contra hlen
      rw [hinvoke] at hi
      exact hlists (.arguments kind m i.arguments hi (by omega))

end DexFile

namespace Container

variable {d : DexFile} {c : Container}

/-- The arguments of every instruction are stored. -/
theorem exists_stored_of_lowerLines {p : Pools} {lines : List Line}
    {stored : List StoredInstruction} (h : lowerLines p lines = .ok stored)
    {i : SymbolicInstruction} (hi : i ∈ instructionsOf lines) :
    ∃ j ∈ stored, j.arguments = i.arguments := by
  obtain ⟨n, hn, rfl⟩ := List.getElem_of_mem hi
  have hget : (resolved lines)[n]? =
      some ((instructionsOf lines)[n].mapTarget (placeOf lines)) := by
    rw [resolved, List.getElem?_map, List.getElem?_eq_getElem hn, Option.map_some]
  obtain ⟨j, hj, hij⟩ := exists_of_mem_of_mapM (storeResolved_of_lowerLines h)
    (List.mk_mem_zipIdx_iff_getElem?.mpr hget)
  exact ⟨j, hj, (Instruction.arguments_of_traverse hij).trans
    (Instruction.arguments_mapTarget _ _)⟩

theorem arguments_lt_of_fits (h : ofDexFile d = .ok c) (hfits : c.Fits) {i : SymbolicInstruction}
    (hi : i ∈ d.instructions) : i.arguments.length < 256 := by
  obtain ⟨-, hclasses⟩ := ofDexFile_eq_ok_iff.mp h
  obtain ⟨b, hb, hi⟩ := DexFile.mem_instructions_iff.mp hi
  obtain ⟨k, hk, m, hm, hmb⟩ := DexFile.mem_bodies.mp hb
  obtain ⟨storedClass, hclass, hk⟩ := exists_of_mem_of_mapM hclasses hk
  obtain ⟨type, super, methods, -, -, hmethods, rfl⟩ := ClassDef.lower_eq_ok_iff.mp hk
  obtain ⟨storedMethod, hmethod, hm⟩ := exists_of_mem_of_mapM hmethods hm
  obtain ⟨ref, body, -, hbody, rfl⟩ := Method.lower_eq_ok_iff.mp hm
  rw [hmb] at hbody
  cases hbody with
  | some hlower =>
    obtain ⟨instructions, hlines, rfl⟩ := Body.lower_eq_ok_iff.mp hlower
    obtain ⟨j, hj, hij⟩ := exists_stored_of_lowerLines hlines hi
    have hbodyFits := (hfits.classes _ hclass).methods _ hmethod _ rfl
    exact hij ▸ hbodyFits.instructions j hj

theorem length_image (content : Bytes) : (image content).length = 12 + content.length := by
  rw [image, List.length_append, List.length_append, LittleEndian.length_digits, ← Nat.add_assoc]
  rfl

/-- The container of a dex file fits exactly if the lists that are not bounded by the pools and
the bodies do. -/
theorem fits_iff (h : ofDexFile d = .ok c) (hpools : d.PoolsBelow 4294967296)
    (hbodies : ∀ b ∈ d.bodies, (instructionsOf b.lines).length ≤ 2147483648) :
    c.Fits ↔ ¬ (d.Overlong ∨ d.Oversized) := by
  constructor
  · intro hfits
    obtain ⟨hofDexFile, hclasses⟩ := ofDexFile_eq_ok_iff.mp h
    have hbuilt := Pools.builtFrom_of_ofDexFile hofDexFile
    rintro ((⟨m, hm, hlen⟩ | ⟨kind, m, args, hi, hlen⟩) | ⟨s, hs, hlen⟩ | hlen | ⟨k, hk, hlen⟩)
    · obtain ⟨protos, hprotos, heq⟩ := hbuilt.protos
      obtain ⟨stored, hmem, hstored⟩ := exists_of_mem_of_mapM hprotos
        (List.mem_map_of_mem (DexFile.mem_mentionedMethods_iff.mpr hm))
      have hfit : stored.parameters.length < 65536 :=
        hfits.pools.protos stored (heq ▸ OrderedSet.mem_ofList.mpr hmem)
      rw [(Pools.protoFor_of_storeProto hstored).parameters.length_eq] at hfit
      omega
    · have hfit := arguments_lt_of_fits h hfits hi
      rw [Instruction.arguments] at hfit
      omega
    · have hfit := hfits.pools.strings s ((hbuilt.canonical.strings s).mpr hs)
      omega
    · have hfit := hfits.length
      rw [length_of_mapM hclasses] at hfit
      omega
    · obtain ⟨stored, hstored, hk⟩ := exists_of_mem_of_mapM hclasses hk
      obtain ⟨type, super, methods, -, -, hmethods, rfl⟩ := ClassDef.lower_eq_ok_iff.mp hk
      have hfit := (hfits.classes _ hstored).length
      rw [length_of_mapM hmethods] at hfit
      omega
  · intro hsizes
    obtain ⟨hlists, hcounts⟩ := not_or.mp hsizes
    refine fits_of_ofDexFile h ⟨DexFile.entriesFit_of_not_overlong hlists hcounts, hpools, ?_,
      fun k hk => ?_, hbodies⟩
    · by_contra hlen
      exact hcounts (.classes (Nat.not_lt.mp hlen))
    · by_contra hlen
      exact hcounts (.methods k hk (Nat.not_lt.mp hlen))

end Container

namespace DexFile

variable {d : DexFile}

/-- With its labels placed, a dex file has an image exactly if its sizes fit, and is out of range
otherwise. -/
theorem image_cases (hlabels : ∀ e, ¬ d.LabelFault e) (hpools : d.PoolsBelow 4294967296)
    (hbodies : ∀ b ∈ d.bodies, (instructionsOf b.lines).length ≤ 2147483648) :
    (d.Overlong ∨ d.Oversized) ∧ d.image = .error (.error .outOfRange) ∨
      ¬ (d.Overlong ∨ d.Oversized) ∧ ∃ content, d.image = .ok (Container.image content) := by
  obtain ⟨c, hc⟩ := (failsWith_container hpools hbodies).exists_ok hlabels
  have hfits := Container.fits_iff hc hpools hbodies
  rw [image, hc, ok_bind]
  by_cases h : d.Overlong ∨ d.Oversized
  · have hnone : c.render? = none := by
      refine Option.eq_none_iff_forall_ne_some.mpr fun bytes hbytes => ?_
      exact hfits.mp (Container.render?_eq_some_iff.mp hbytes).1 h
    exact .inl ⟨h, by rw [hnone]⟩
  · have hsome := Container.render?_eq_some_iff.mpr ⟨hfits.mpr h, rfl⟩
    exact .inr ⟨h, c.bytes, by rw [hsome]⟩

/-! ## Memory -/

/-- What comes of fixed bytes: memory is asked for, as much as they take, and the result depends on
nothing but the answer. -/
structure StoredAs (d : DexFile) (fixed : Bytes) : Prop where
  failed : ∀ allocate : Allocator,
    d.encode allocate = .error (.error (.allocationFailed fixed.length)) ↔
      allocate fixed.length = .refused ∨
        ∃ contents, allocate fixed.length = .memory contents ∧ contents.length < fixed.length
  stored : ∀ (allocate : Allocator) (contents : Bytes),
    allocate fixed.length = .memory contents → fixed.length ≤ contents.length →
      d.encode allocate = .ok (fixed ++ contents.drop fixed.length)
  aborted : ∀ (allocate : Allocator) (message : String),
    allocate fixed.length = .aborted message → d.encode allocate = .error (.aborted message)

theorem encode_of_image {bytes : Bytes} (h : d.image = .ok bytes) (allocate : Allocator) :
    d.encode allocate = allocate.place bytes := by
  rw [encode, h, ok_bind]

theorem encode_of_image_error {e : EncodeFailure} (h : d.image = .error e)
    (allocate : Allocator) : d.encode allocate = .error e := by
  rw [encode, h, error_bind]

theorem storedAs_of_image {fixed : Bytes} (h : d.image = .ok fixed) : d.StoredAs fixed where
  failed := by
    intro allocate
    rw [encode_of_image h, Allocator.place]
    cases hanswer : allocate fixed.length with
    | refused => simp
    | aborted message => simp
    | memory contents =>
      by_cases hlen : contents.length < fixed.length <;> simp [hlen]
  stored := by
    intro allocate contents hanswer hlen
    rw [encode_of_image h, Allocator.place, hanswer]
    exact if_neg (Nat.not_lt.mpr hlen)
  aborted := by
    intro allocate message hanswer
    rw [encode_of_image h, Allocator.place, hanswer]

/-- How storing ends, for dex files whose pools and bodies are not too large.  Every item is found
in the pools.  The fault of a label comes first; without one, what is left is that a length does
not fit its field; and without that, the bytes are fixed, memory is asked for as many as there
are, and what the allocator handed out beyond them is kept.  Labels that are placed once and that
no branch leads to make no difference. -/
theorem encode_outcome (hpools : d.PoolsBelow 2147483648)
    (hbodies : ∀ b ∈ d.bodies, (instructionsOf b.lines).length < 2147483648) :
    (∃ p, Pools.ofDexFile d = .ok p ∧
      (∀ s, d.MentionsString s → ∃ i, p.indexOfString s = .ok i) ∧
      (∀ s, d.MentionsDescriptor s → ∃ i, p.indexOfType s = .ok i) ∧
      (∀ m, d.MentionsMethod m → ∃ i, p.indexOfMethod m = .ok i) ∧
      d.image ≠ .error .notPooled) ∧
    (∀ e, d.LabelFault e → ∀ allocate, d.encode allocate = .error e) ∧
    ((∀ e, ¬ d.LabelFault e) →
      (∀ allocate, d.encode allocate = .error (.error .outOfRange) ↔
        d.Overlong ∨ d.Oversized) ∧
      (¬ (d.Overlong ∨ d.Oversized) → ∃ content,
        (Container.image content).length = 12 + content.length ∧
        d.StoredAs (Container.image content))) ∧
    ∀ (front back : List Line) (l : Label), l ∉ labelsOf (front ++ back) →
      (∀ i ∈ instructionsOf (front ++ back), i.target? ≠ some l) →
      ∀ e, DexWeave.LabelFault (front ++ .label l :: back) e ↔
        DexWeave.LabelFault (front ++ back) e := by
  have hpools' := hpools.mono (by decide : 2147483648 ≤ 4294967296)
  have hbodies' := fun b hb => Nat.le_of_lt (hbodies b hb)
  have hcontainer := failsWith_container hpools' hbodies'
  have hfault : ∀ e, d.LabelFault e → d.image = .error e := by
    intro e he
    rw [image, (hcontainer e).mpr he, error_bind]
  refine ⟨?_, fun e he => encode_of_image_error (hfault e he), fun hlabels => ?_,
    fun front back l hplaced htarget e => labelFault_insert_iff hplaced htarget⟩
  · obtain ⟨p, hp⟩ := (Pools.failsOnly_ofDexFile d).exists_ok hpools'
    have hbuilt := Pools.builtFrom_of_ofDexFile hp
    refine ⟨p, hp, fun s hs => hbuilt.exists_indexOfString (mem_mentionedStrings_iff.mpr hs),
      fun s hs => hbuilt.exists_indexOfType (mem_mentionedDescriptors_iff.mpr hs),
      fun m hm => hbuilt.exists_indexOfMethod (mem_mentionedMethods_iff.mpr hm), fun hmissed => ?_⟩
    by_cases hlabels : ∃ e, d.LabelFault e
    · obtain ⟨e, he⟩ := hlabels
      obtain ⟨b, -, hb⟩ := FirstFault.exists_mem he
      exact hb.ne_notPooled (Except.error.inj ((hfault e he).symm.trans hmissed))
    · rcases image_cases (not_exists.mp hlabels) hpools' hbodies' with
        ⟨-, himage⟩ | ⟨-, content, himage⟩
      · cases himage.symm.trans hmissed
      · cases himage.symm.trans hmissed
  · rcases image_cases hlabels hpools' hbodies' with ⟨hsizes, himage⟩ | ⟨hsizes, content, himage⟩
    · refine ⟨fun allocate => iff_of_true (encode_of_image_error himage allocate) hsizes,
        fun hnot => absurd hsizes hnot⟩
    · refine ⟨fun allocate => iff_of_false (fun herror => ?_) hsizes,
        fun _ => ⟨content, Container.length_image content, storedAs_of_image himage⟩⟩
      rw [encode_of_image himage, Allocator.place] at herror
      split at herror
      · cases herror
      · cases herror
      · split at herror <;> cases herror

/-- A body whose only branch leads behind its last instruction, and whose labels differ. -/
def trailing : DexFile :=
  ⟨[⟨⟨"A"⟩, ⟨1⟩, none, [⟨⟨⟨"A"⟩, "run", ⟨[], .void⟩⟩, ⟨9⟩, some ⟨0, 0, 0,
    [.label ⟨1⟩, .instruction .nop, .instruction (.goto ⟨0⟩), .label ⟨0⟩]⟩⟩]⟩]⟩

theorem encode_outcome_trailing :
    trailing.PoolsBelow 2147483648 ∧
      trailing.encode Allocator.heap = .error (.error (.danglingLabel ⟨0⟩)) := by
  have hpools : trailing.PoolsBelow 2147483648 := by decide +kernel
  obtain ⟨-, hlabels, -, -⟩ := encode_outcome hpools (by decide +kernel)
  refine ⟨hpools, hlabels _ (.here _ _ _ ?_) Allocator.heap⟩
  refine .branch _ (by decide) (.later _ _ _ ?_ (.here _ _ _ ?_))
  · rintro e (⟨l, hl, -⟩ | ⟨l, hl, -⟩) <;> cases hl
  · exact .dangling ⟨0⟩ rfl ⟨[.label ⟨1⟩, .instruction .nop, .instruction (.goto ⟨0⟩)], [], rfl, rfl⟩

end DexFile

end DexWeave
