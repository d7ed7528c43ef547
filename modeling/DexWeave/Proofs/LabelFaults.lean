/-
  DexWeave/Proofs/LabelFaults.lean --- faults of labels.

  WHAT THIS FILE IS FOR.  A label of a body is at fault if it is placed again, or if a branch
  leads to it and it is nowhere placed, or placed behind the last instruction.  The faults
  are described here without places and distances, and so is which one counts: the first
  label that is placed again, and only without one of those the first branch at fault.

  WHAT IS PROVED.  Storing a body that is not too long fails with its fault and with nothing
  else, and so does storing a dex file with the fault of its first body that has one.  A
  label that is placed once and that no branch leads to can stand anywhere.
-/
import DexWeave.Proofs.Encodable

set_option autoImplicit false

namespace DexWeave

open Fallible

variable {lines : List Line} {l : Label}

/-! ## Faults -/

/-- The label is the first one that is placed again. -/
def FirstDuplicate (lines : List Line) (l : Label) : Prop :=
  ∃ front back, labelsOf lines = front ++ l :: back ∧ front.Nodup ∧ l ∈ front

/-- The label is placed behind the last instruction. -/
def Dangles (lines : List Line) (l : Label) : Prop :=
  ∃ front back, lines = front ++ .label l :: back ∧ instructionsOf back = []

/-- The fault of an instruction that branches to a label. -/
inductive BranchFault (lines : List Line) (i : SymbolicInstruction) : EncodeFailure → Prop where
  | undefined (l : Label) (hl : i.target? = some l) (h : l ∉ labelsOf lines) :
    BranchFault lines i (.error (.undefinedLabel l))
  | dangling (l : Label) (hl : i.target? = some l) (h : Dangles lines l) :
    BranchFault lines i (.error (.danglingLabel l))

/-- The fault of a body: that of its labels, or else that of its first branch that has one. -/
inductive LabelFault (lines : List Line) : EncodeFailure → Prop where
  | duplicate (l : Label) (h : FirstDuplicate lines l) :
    LabelFault lines (.error (.duplicateLabel l))
  | branch (e : EncodeFailure) (hnodup : (labelsOf lines).Nodup)
    (h : FirstFault (BranchFault lines) (instructionsOf lines) e) : LabelFault lines e

/-- The fault of the first body that has one, in the order of the classes and methods. -/
def DexFile.LabelFault (d : DexFile) : EncodeFailure → Prop :=
  FirstFault (fun b => DexWeave.LabelFault b.lines) d.bodies

/-- A fault of labels is not one of the pools. -/
theorem LabelFault.ne_notPooled {e : EncodeFailure} (h : LabelFault lines e) : e ≠ .notPooled := by
  cases h with
  | duplicate => nofun
  | branch e _ h =>
    obtain ⟨i, -, hi⟩ := h.exists_mem
    cases hi with
    | undefined => nofun
    | dangling => nofun

/-! ## Places -/

/-- A label that is placed somewhere has a first place. -/
theorem exists_split_of_mem (h : l ∈ labelsOf lines) :
    ∃ front back, lines = front ++ .label l :: back ∧ l ∉ labelsOf front := by
  induction lines with
  | nil => exact absurd h List.not_mem_nil
  | cons line lines ih =>
    cases line with
    | instruction i =>
      obtain ⟨front, back, rfl, hfront⟩ := ih h
      exact ⟨.instruction i :: front, back, rfl, hfront⟩
    | label l' =>
      by_cases hl : l = l'
      · exact ⟨[], lines, by rw [hl]; rfl, List.not_mem_nil⟩
      · obtain ⟨front, back, rfl, hfront⟩ := ih ((List.mem_cons.mp h).resolve_left hl)
        exact ⟨.label l' :: front, back, rfl, fun hmem =>
          hfront ((List.mem_cons.mp hmem).resolve_left hl)⟩

/-- Among labels that differ, those behind the last instruction have no instruction at their
place. -/
theorem dangles_iff (hnodup : (labelsOf lines).Nodup) :
    Dangles lines l ↔ l ∈ labelsOf lines ∧ (instructionsOf lines).length ≤ placeOf lines l := by
  constructor
  · rintro ⟨front, back, rfl, hback⟩
    have hfront : l ∉ labelsOf front := by
      rw [labelsOf_append, labelsOf_label_cons] at hnodup
      exact fun hmem => (List.nodup_append.mp hnodup).2.2 l hmem l List.mem_cons_self rfl
    rw [placeOf_append_label hfront]
    simp [hback]
  · rintro ⟨hmem, hle⟩
    obtain ⟨front, back, rfl, hfront⟩ := exists_split_of_mem hmem
    rw [placeOf_append_label hfront, instructionsOf_append, instructionsOf_label_cons,
      List.length_append] at hle
    exact ⟨front, back, rfl, List.length_eq_zero_iff.mp (by omega)⟩

theorem firstRepeated_eq_some_iff {seen ls : List Label} :
    firstRepeated seen ls = some l ↔ ∃ front back, ls = front ++ l :: back ∧ front.Nodup ∧
      (∀ k ∈ front, k ∉ seen) ∧ (l ∈ front ∨ l ∈ seen) := by
  induction ls generalizing seen with
  | nil => simp [firstRepeated]
  | cons k ls ih =>
    rw [firstRepeated]
    split
    · rename_i hk
      constructor
      · intro h
        obtain rfl := Option.some.inj h
        exact ⟨[], ls, rfl, List.nodup_nil, fun _ h => absurd h List.not_mem_nil, .inr hk⟩
      · rintro ⟨_ | ⟨k', front⟩, back, hls, -, hseen, -⟩
        · exact congrArg some (List.cons.inj hls).1
        · obtain ⟨rfl, -⟩ := List.cons.inj hls
          exact absurd hk (hseen k List.mem_cons_self)
    · rename_i hk
      rw [ih]
      constructor
      · rintro ⟨front, back, rfl, hnodup, hseen, hl⟩
        refine ⟨k :: front, back, rfl, List.nodup_cons.mpr ⟨fun hmem => ?_, hnodup⟩,
          List.forall_mem_cons.mpr ⟨hk, fun k' hk' hmem => ?_⟩, ?_⟩
        · exact hseen k hmem List.mem_cons_self
        · exact hseen k' hk' (List.mem_cons_of_mem k hmem)
        · rcases hl with hl | hl
          · exact .inl (List.mem_cons_of_mem k hl)
          · rcases List.mem_cons.mp hl with rfl | hl
            · exact .inl List.mem_cons_self
            · exact .inr hl
      · rintro ⟨_ | ⟨k', front⟩, back, hls, hnodup, hseen, hl⟩
        · obtain ⟨rfl, rfl⟩ := List.cons.inj hls
          exact absurd (hl.resolve_left List.not_mem_nil) hk
        · obtain ⟨rfl, rfl⟩ := List.cons.inj hls
          obtain ⟨hk', hfront⟩ := List.nodup_cons.mp hnodup
          refine ⟨front, back, rfl, hfront, fun j hj hmem => ?_, ?_⟩
          · rcases List.mem_cons.mp hmem with rfl | hmem
            · exact hk' hj
            · exact hseen j (List.mem_cons_of_mem k hj) hmem
          · rcases hl with hl | hl
            · rcases List.mem_cons.mp hl with rfl | hl
              · exact .inr List.mem_cons_self
              · exact .inl hl
            · exact .inr (List.mem_cons_of_mem k hl)

theorem firstRepeated_nil_eq_some_iff :
    firstRepeated [] (labelsOf lines) = some l ↔ FirstDuplicate lines l := by
  rw [firstRepeated_eq_some_iff, FirstDuplicate]
  simp

theorem labelFault_iff {e : EncodeFailure} :
    LabelFault lines e ↔
      (∃ l, firstRepeated [] (labelsOf lines) = some l ∧ e = .error (.duplicateLabel l)) ∨
        (labelsOf lines).Nodup ∧ FirstFault (BranchFault lines) (instructionsOf lines) e := by
  constructor
  · rintro (⟨l, h⟩ | ⟨e, hnodup, h⟩)
    · exact .inl ⟨l, firstRepeated_nil_eq_some_iff.mpr h, rfl⟩
    · exact .inr ⟨hnodup, h⟩
  · rintro (⟨l, h, rfl⟩ | ⟨hnodup, h⟩)
    · exact .duplicate l (firstRepeated_nil_eq_some_iff.mp h)
    · exact .branch e hnodup h

theorem branchFault_iff {i : SymbolicInstruction} (hnodup : (labelsOf lines).Nodup)
    {e : EncodeFailure} :
    BranchFault lines i e ↔ ∃ l, i.target? = some l ∧
      ((l ∉ labelsOf lines ∧ e = .error (.undefinedLabel l)) ∨
        (l ∈ labelsOf lines ∧ (instructionsOf lines).length ≤ placeOf lines l) ∧
          e = .error (.danglingLabel l)) := by
  constructor
  · rintro (⟨l, hl, h⟩ | ⟨l, hl, h⟩)
    · exact ⟨l, hl, .inl ⟨h, rfl⟩⟩
    · exact ⟨l, hl, .inr ⟨(dangles_iff hnodup).mp h, rfl⟩⟩
  · rintro ⟨l, hl, ⟨h, rfl⟩ | ⟨h, rfl⟩⟩
    · exact .undefined l hl h
    · exact .dangling l hl ((dangles_iff hnodup).mpr h)

/-! ## Bodies -/

theorem offsetTo_eq_error_iff {length position : Nat} {e : EncodeFailure}
    (hlength : length ≤ 2147483648) (hposition : position < length) :
    offsetTo (placements 0 lines) length position l = .error e ↔
      (l ∉ labelsOf lines ∧ e = .error (.undefinedLabel l)) ∨
        (l ∈ labelsOf lines ∧ length ≤ placeOf lines l) ∧ e = .error (.danglingLabel l) := by
  rw [offsetTo, lookup_placements, Nat.zero_add]
  by_cases hl : l ∈ labelsOf lines
  · simp only [hl, if_true, not_true_eq_false, false_and, false_or, true_and]
    by_cases hplace : length ≤ placeOf lines l
    · rw [if_pos hplace, Except.error.injEq, and_iff_right hplace, eq_comm]
    · rw [if_neg hplace, if_neg (by omega)]
      exact iff_of_false (fun h => by cases h) fun h => hplace h.1
  · simp [hl, eq_comm]

/-- Storing an instruction fails with the fault of its branch target. -/
theorem failsWith_storeInstruction {p : Pools} (hnodup : (labelsOf lines).Nodup)
    {i : SymbolicInstruction} (hi : p.Indexes i) {position : Nat}
    (hlength : (instructionsOf lines).length ≤ 2147483648)
    (hposition : position < (instructionsOf lines).length) :
    FailsWith (i.traverse p.indexOfString p.indexOfValueType p.indexOfMethod
      (offsetTo (placements 0 lines) (instructionsOf lines).length position))
      (BranchFault lines i) := by
  refine (Instruction.failsWith_traverse hi.text hi.type hi.method).congr fun e => ?_
  rw [branchFault_iff hnodup]
  exact exists_congr fun l => and_congr_right fun _ => offsetTo_eq_error_iff hlength hposition

/-- Storing the lines of a body fails with the fault of its labels. -/
theorem failsWith_lowerLines {p : Pools} (hpools : ∀ i ∈ instructionsOf lines, p.Indexes i)
    (hlength : (instructionsOf lines).length ≤ 2147483648) :
    FailsWith (lowerLines p lines) (LabelFault lines) := by
  rw [lowerLines]
  cases hfirst : firstRepeated [] (labelsOf lines) with
  | some l =>
    have hrepeated : ¬ (labelsOf lines).Nodup := by
      intro hnodup
      rw [firstRepeated_eq_none_iff.mpr ⟨hnodup, fun _ _ => List.not_mem_nil⟩] at hfirst
      cases hfirst
    intro e
    rw [labelFault_iff, hfirst, or_iff_left fun h => hrepeated h.1, Except.error.injEq]
    simp [eq_comm]
  | none =>
    obtain ⟨hnodup, -⟩ := firstRepeated_eq_none_iff.mp hfirst
    have hmap : instructionsOf lines = (instructionsOf lines).zipIdx.map Prod.fst :=
      (List.zipIdx_map_fst 0 _).symm
    have hall : FailsWith ((instructionsOf lines).zipIdx.mapM fun x =>
        x.1.traverse p.indexOfString p.indexOfValueType p.indexOfMethod
          (offsetTo (placements 0 lines) (instructionsOf lines).length x.2))
        (FirstFault (fun x => BranchFault lines x.1) (instructionsOf lines).zipIdx) := by
      refine .mapM fun x hx => ?_
      obtain ⟨i, position⟩ := x
      have hposition := List.snd_lt_of_mem_zipIdx hx
      rw [Nat.add_zero] at hposition
      exact failsWith_storeInstruction hnodup (hpools i (List.fst_mem_of_mem_zipIdx hx)) hlength
        hposition
    refine hall.congr fun e => ?_
    rw [← FirstFault.map_iff, ← hmap, labelFault_iff, hfirst, and_iff_right hnodup]
    simp

/-! ## Dex files -/

section DexFiles

variable {d : DexFile} {p : Pools}

theorem failsWith_lowerMethod (hpools : p.BuiltFrom d)
    (hbodies : ∀ b ∈ d.bodies, (instructionsOf b.lines).length ≤ 2147483648) {c : ClassDef}
    (hc : c ∈ d.classes) {m : Method} (hm : m ∈ c.methods) :
    FailsWith (m.lower p) fun e => ∃ b, m.body = some b ∧ LabelFault b.lines e := by
  obtain ⟨ref, href⟩ := hpools.exists_indexOfMethod (DexFile.ref_mem_mentionedMethods hc hm)
  have hbody : FailsWith (Body.lowerIfAny p m.body) fun e =>
      ∃ b, m.body = some b ∧ LabelFault b.lines e := by
    cases hb : m.body with
    | none => exact .of_ok rfl nofun
    | some b =>
      have hlines := failsWith_lowerLines (p := p)
        (fun i hi => hpools.indexes (DexFile.mem_instructions hc hm hb hi))
        (hbodies b (DexFile.mem_bodies.mpr ⟨c, hc, m, hm, hb⟩))
      have hlower : FailsWith (b.lower p) (LabelFault b.lines) :=
        hlines.bind_ok fun _ _ => ⟨_, rfl⟩
      refine (hlower.map some).congr fun e => ⟨fun h => ⟨b, rfl, h⟩, ?_⟩
      rintro ⟨b', hb', h⟩
      exact Option.some.inj hb' ▸ h
  rw [Method.lower_eq]
  exact hbody.bind_ok fun body _ => ⟨_, by rw [href]; rfl⟩

theorem failsWith_lowerClass (hpools : p.BuiltFrom d)
    (hbodies : ∀ b ∈ d.bodies, (instructionsOf b.lines).length ≤ 2147483648) {c : ClassDef}
    (hc : c ∈ d.classes) :
    FailsWith (c.lower p)
      (FirstFault (fun b => LabelFault b.lines) (c.methods.filterMap Method.body)) := by
  obtain ⟨type, htype⟩ := hpools.exists_indexOfType
    (DexFile.class_mem_mentionedDescriptors (DexFile.name_mem_definedClasses hc))
  obtain ⟨super, hsuper⟩ := hpools.exists_superIndex hc
  refine FailsWith.bind_ok ?_ fun methods _ => ⟨_, by rw [htype, ok_bind, hsuper]; rfl⟩
  exact (FailsWith.mapM fun m hm => failsWith_lowerMethod hpools hbodies hc hm).congr
    fun e => FirstFault.filterMap_iff.symm

/-- A dex file whose sizes are in range has a container, or a body at fault. -/
theorem failsWith_container (hpools : d.PoolsBelow 4294967296)
    (hbodies : ∀ b ∈ d.bodies, (instructionsOf b.lines).length ≤ 2147483648) :
    FailsWith (Container.ofDexFile d) d.LabelFault := by
  obtain ⟨p, hp⟩ := (Pools.failsOnly_ofDexFile d).exists_ok hpools
  have hclasses : FailsWith (d.classes.mapM (·.lower p)) d.LabelFault :=
    (FailsWith.mapM fun c hc =>
      failsWith_lowerClass (Pools.builtFrom_of_ofDexFile hp) hbodies hc).congr
      fun e => FirstFault.flatMap_iff.symm
  rw [Container.ofDexFile, hp, ok_bind]
  exact hclasses.bind_ok fun _ _ => ⟨_, rfl⟩

end DexFiles

/-! ## Labels that do no harm -/

theorem placeOf_insert {front back : List Line} {k : Label} (hkl : l ≠ k) :
    placeOf (front ++ .label l :: back) k = placeOf (front ++ back) k := by
  induction front with
  | nil =>
    rw [List.nil_append, List.nil_append, placeOf, List.takeWhile_cons_of_pos (by simpa using hkl),
      instructionsOf_label_cons, placeOf]
  | cons line front ih =>
    rw [placeOf, placeOf] at ih
    rw [List.cons_append, List.cons_append, placeOf, placeOf, List.takeWhile_cons,
      List.takeWhile_cons]
    split
    · cases line with
      | label l' => exact ih
      | instruction i => exact congrArg (· + 1) ih
    · rfl

theorem firstRepeated_congr {seen seen' ls : List Label} (h : ∀ k ∈ ls, k ∈ seen ↔ k ∈ seen') :
    firstRepeated seen ls = firstRepeated seen' ls := by
  induction ls generalizing seen seen' with
  | nil => rfl
  | cons k ls ih =>
    obtain ⟨hk, hls⟩ := List.forall_mem_cons.mp h
    have hrest : firstRepeated (k :: seen) ls = firstRepeated (k :: seen') ls :=
      ih fun j hj => by rw [List.mem_cons, List.mem_cons, hls j hj]
    simp only [firstRepeated, hk, hrest]

theorem firstRepeated_insert {seen front back : List Label} (hl : l ∉ front ++ back)
    (hseen : l ∉ seen) :
    firstRepeated seen (front ++ l :: back) = firstRepeated seen (front ++ back) := by
  induction front generalizing seen with
  | nil =>
    rw [List.nil_append, List.nil_append, firstRepeated, if_neg hseen]
    refine firstRepeated_congr fun k hk => ?_
    rw [List.mem_cons, or_iff_right]
    rintro rfl
    exact hl hk
  | cons k front ih =>
    obtain ⟨hlk, hl⟩ := List.ne_and_not_mem_of_not_mem_cons hl
    rw [List.cons_append, List.cons_append, firstRepeated, firstRepeated,
      ih hl (List.not_mem_cons_of_ne_of_not_mem hlk hseen)]

/-- A label that is placed nowhere else and that no branch leads to makes no difference. -/
theorem labelFault_insert_iff {front back : List Line} (hplaced : l ∉ labelsOf (front ++ back))
    (htarget : ∀ i ∈ instructionsOf (front ++ back), i.target? ≠ some l) {e : EncodeFailure} :
    LabelFault (front ++ .label l :: back) e ↔ LabelFault (front ++ back) e := by
  have hlabels : labelsOf (front ++ .label l :: back) = labelsOf front ++ l :: labelsOf back :=
    labelsOf_append _ _
  have hinstructions : instructionsOf (front ++ .label l :: back) =
      instructionsOf (front ++ back) := by
    rw [instructionsOf_append, instructionsOf_append, instructionsOf_label_cons]
  have hnodup : (labelsOf (front ++ .label l :: back)).Nodup ↔ (labelsOf (front ++ back)).Nodup := by
    rw [hlabels, List.nodup_middle, ← labelsOf_append, List.nodup_cons, and_iff_right hplaced]
  have hfirst : firstRepeated [] (labelsOf (front ++ .label l :: back)) =
      firstRepeated [] (labelsOf (front ++ back)) := by
    rw [labelsOf_append] at hplaced
    rw [hlabels, firstRepeated_insert hplaced List.not_mem_nil, labelsOf_append]
  rw [labelFault_iff, labelFault_iff, hfirst, hnodup, hinstructions]
  refine or_congr_right (and_congr_right fun hdistinct => FirstFault.congr fun i hi e => ?_)
  rw [branchFault_iff (hnodup.mpr hdistinct), branchFault_iff hdistinct, hinstructions]
  refine exists_congr fun k => and_congr_right fun hk => ?_
  have hlk : l ≠ k := by
    rintro rfl
    exact htarget i hi hk
  have hmem : k ∈ labelsOf (front ++ .label l :: back) ↔ k ∈ labelsOf (front ++ back) := by
    rw [hlabels, labelsOf_append, List.mem_append, List.mem_append, List.mem_cons,
      or_iff_right hlk.symm]
  rw [hmem, placeOf_insert hlk]

end DexWeave
