/-
  DexWeave/Proofs/BodyRoundTrip.lean --- bodies stored and read again.

  WHAT THIS FILE IS FOR.  Storing a body turns labels into distances, and reading turns
  distances into labels.  Both go through resolved instructions: storing resolves the
  labels first, and reading chooses labels for resolved instructions last.  In between
  stand two traversals that undo each other.

  WHICH BODIES.  Nothing is asked of a body that was stored: what storing checks is enough
  for the way back.  Bodies that were read are canonical, and a canonical body can fail to
  be stored for its size only.
-/
import DexWeave.Container.Decode
import DexWeave.Proofs.CanonicalBody
import DexWeave.Proofs.DexPools

set_option autoImplicit false

namespace DexWeave

open Fallible

/-! ## Distances -/

/-- The distance from a branch to the instruction at a place. -/
def offsetBetween (length position target : Nat) : Except EncodeFailure Int32 :=
  if target < length ∧ target < 2147483648 ∧ position < 2147483648 then
    .ok (Int32.ofInt ((target : Int) - position))
  else .error (.error .outOfRange)

theorem offsetBetween_eq_ok_iff {length position target : Nat} {offset : Int32} :
    offsetBetween length position target = .ok offset ↔
      (target < length ∧ target < 2147483648 ∧ position < 2147483648) ∧
        offset = Int32.ofInt ((target : Int) - position) := by
  rw [offsetBetween]
  split
  · rename_i hlt
    rw [Except.ok.injEq, and_iff_right hlt, eq_comm]
  · rename_i hlt
    exact ⟨fun h => (by cases h), fun h => absurd h.1 hlt⟩

/-- Following a distance leads to where it was measured. -/
theorem branchTarget_of_offsetBetween {length position target : Nat} {offset : Int32}
    (h : offsetBetween length position target = .ok offset) :
    branchTarget length position offset = .ok target := by
  obtain ⟨⟨hlength, htarget, hposition⟩, rfl⟩ := offsetBetween_eq_ok_iff.mp h
  have hoffset : (Int32.ofInt ((target : Int) - position)).toInt = (target : Int) - position :=
    Int32.toInt_ofInt_of_le (by omega) (by omega)
  have hsum : (position : Int) + ((target : Int) - position) = target := by omega
  simp only [branchTarget, hoffset, hsum]
  rw [if_pos ⟨Int.natCast_nonneg _, by omega⟩, Int.toNat_natCast]

theorem branchTarget_lt {length position target : Nat} {offset : Int32}
    (h : branchTarget length position offset = .ok target) : target < length := by
  simp only [branchTarget] at h
  split at h
  · obtain rfl := Except.ok.inj h
    omega
  · cases h

/-! ## Labels and their places -/

theorem lookup_placements (n : Nat) (lines : List Line) (l : Label) :
    (placements n lines).lookup l =
      if l ∈ labelsOf lines then some (n + placeOf lines l) else none := by
  induction lines generalizing n with
  | nil => rfl
  | cons line lines ih =>
    cases line with
    | label l' =>
      rw [placements, List.lookup_cons, labelsOf_label_cons]
      by_cases hl : l = l'
      · subst hl
        simp [placeOf]
      · have hplace : placeOf (.label l' :: lines) l = placeOf lines l := by
          rw [placeOf, List.takeWhile_cons_of_pos (by simpa using Ne.symm hl),
            instructionsOf_label_cons, placeOf]
        have hbeq : (l == l') = false := by simpa using hl
        simp only [hbeq, ih n, hplace, List.mem_cons, hl, false_or]
    | instruction i =>
      have hplace : placeOf (.instruction i :: lines) l = placeOf lines l + 1 := by
        rw [placeOf, List.takeWhile_cons_of_pos (by simp), instructionsOf_instruction_cons,
          List.length_cons, placeOf]
      rw [placements, ih (n + 1), labelsOf_instruction_cons, hplace, Nat.add_right_comm,
        Nat.add_assoc]

theorem firstRepeated_eq_none_iff {seen ls : List Label} :
    firstRepeated seen ls = none ↔ ls.Nodup ∧ ∀ l ∈ ls, l ∉ seen := by
  induction ls generalizing seen with
  | nil => simp [firstRepeated]
  | cons l ls ih =>
    rw [firstRepeated]
    split
    · rename_i hl
      exact ⟨fun h => (by cases h), fun h => absurd hl (h.2 l List.mem_cons_self)⟩
    · rename_i hl
      rw [ih, List.nodup_cons]
      constructor
      · rintro ⟨hnodup, hseen⟩
        refine ⟨⟨fun hmem => hseen l hmem List.mem_cons_self, hnodup⟩, ?_⟩
        intro k hk
        rcases List.mem_cons.mp hk with rfl | hk
        · exact hl
        · exact fun hmem => hseen k hk (List.mem_cons_of_mem _ hmem)
      · rintro ⟨⟨hmem, hnodup⟩, hseen⟩
        refine ⟨hnodup, fun k hk hks => ?_⟩
        rcases List.mem_cons.mp hks with rfl | hks
        · exact hmem hk
        · exact hseen k (List.mem_cons_of_mem _ hk) hks

/-- No label is placed twice, and every branch leads to a label before some instruction. -/
structure LabelsPlaced (lines : List Line) : Prop where
  nodup : (labelsOf lines).Nodup
  placed : ∀ i ∈ instructionsOf lines, ∀ l, i.target? = some l →
    l ∈ labelsOf lines ∧ placeOf lines l < (instructionsOf lines).length

theorem IsCanonical.labelsPlaced {lines : List Line} (h : IsCanonical lines) :
    LabelsPlaced lines := by
  refine ⟨h.nodup, fun i hi l hl => ?_⟩
  have hmem := (h.targets l).mpr ⟨i, hi, hl⟩
  refine ⟨hmem, ?_⟩
  have hnodup := h.nodup
  obtain ⟨steps, rfl⟩ := h.steps
  rw [labelsOf_linesOf] at hnodup hmem
  obtain ⟨s, hs, hsl⟩ := List.mem_filterMap.mp hmem
  obtain ⟨n, hn, rfl⟩ := List.mem_iff_getElem.mp hs
  rw [placeOf_linesOf hnodup hn hsl, instructionsOf_linesOf, List.length_map]
  exact hn

/-- The distance to a label is that to its place. -/
theorem offsetTo_eq {lines : List Line} {l : Label} (hl : l ∈ labelsOf lines) {length : Nat}
    (hplace : placeOf lines l < length) (position : Nat) :
    offsetTo (placements 0 lines) length position l =
      offsetBetween length position (placeOf lines l) := by
  rw [offsetTo, lookup_placements, if_pos hl, Nat.zero_add]
  simp only
  rw [if_neg (Nat.not_le.mpr hplace), offsetBetween]
  by_cases hlt : placeOf lines l < 2147483648 ∧ position < 2147483648
  · rw [if_neg (by omega), if_pos ⟨hplace, hlt⟩]
  · rw [if_pos (by omega), if_neg fun h => hlt h.2]

theorem placed_of_offsetTo {lines : List Line} {l : Label} {length position : Nat}
    {offset : Int32} (h : offsetTo (placements 0 lines) length position l = .ok offset) :
    l ∈ labelsOf lines ∧ placeOf lines l < length := by
  rw [offsetTo, lookup_placements] at h
  by_cases hl : l ∈ labelsOf lines
  · rw [if_pos hl, Nat.zero_add] at h
    simp only at h
    split at h
    · cases h
    · rename_i hplace
      exact ⟨hl, Nat.not_le.mp hplace⟩
  · rw [if_neg hl] at h
    cases h

/-! ## Storing resolved instructions -/

/-- The stored form of resolved instructions. -/
def storeResolved (p : Pools) (code : List ResolvedInstruction) :
    Except EncodeFailure (List StoredInstruction) :=
  code.zipIdx.mapM fun (i, position) =>
    i.traverse p.indexOfString p.indexOfValueType p.indexOfMethod
      (offsetBetween code.length position)

/-- Lines are stored by resolving their labels. -/
theorem lowerLines_eq_storeResolved (p : Pools) {lines : List Line} (h : LabelsPlaced lines) :
    lowerLines p lines = storeResolved p (resolved lines) := by
  have hnone : firstRepeated [] (labelsOf lines) = none :=
    firstRepeated_eq_none_iff.mpr ⟨h.nodup, fun _ _ => List.not_mem_nil⟩
  rw [lowerLines, hnone, storeResolved, resolved, List.zipIdx_map, List.mapM_map, List.length_map]
  refine mapM_congr fun x hi => ?_
  obtain ⟨i, position⟩ := x
  refine (Instruction.traverse_congr_target fun l hl => ?_).trans
    (Instruction.traverse_mapTarget _ i).symm
  obtain ⟨hmem, hplace⟩ := h.placed i (List.fst_mem_of_mem_zipIdx hi) l hl
  exact offsetTo_eq hmem hplace position

theorem labelsPlaced_of_lowerLines {p : Pools} {lines : List Line}
    {stored : List StoredInstruction} (h : lowerLines p lines = .ok stored) :
    LabelsPlaced lines := by
  rw [lowerLines] at h
  split at h
  · cases h
  · rename_i hnone
    refine ⟨(firstRepeated_eq_none_iff.mp hnone).1, fun i hi l hl => ?_⟩
    obtain ⟨n, hn, rfl⟩ := List.mem_iff_getElem.mp hi
    obtain ⟨j, -, hj⟩ := exists_of_mem_of_mapM h
      (List.mk_mem_zipIdx_iff_getElem?.mpr (List.getElem?_eq_getElem hn))
    rcases Instruction.target?_of_traverse hj with ⟨hnone, -⟩ | ⟨l', t, hl', ht, -⟩
    · rw [hl] at hnone
      cases hnone
    · obtain rfl := Option.some.inj (hl.symm.trans hl')
      exact placed_of_offsetTo ht

theorem storeResolved_of_lowerLines {p : Pools} {lines : List Line}
    {stored : List StoredInstruction} (h : lowerLines p lines = .ok stored) :
    storeResolved p (resolved lines) = .ok stored := by
  rw [← lowerLines_eq_storeResolved p (labelsPlaced_of_lowerLines h), h]

theorem resolves_of_storeResolved {p : Pools} {code : List ResolvedInstruction}
    {stored : List StoredInstruction} (h : storeResolved p code = .ok stored) :
    Resolves code := by
  intro place hplace
  obtain ⟨i, hi, hplace⟩ := mem_targetsOf.mp hplace
  obtain ⟨n, hn, rfl⟩ := List.mem_iff_getElem.mp hi
  obtain ⟨j, -, hj⟩ := exists_of_mem_of_mapM h
    (List.mk_mem_zipIdx_iff_getElem?.mpr (List.getElem?_eq_getElem hn))
  rcases Instruction.target?_of_traverse hj with ⟨hnone, -⟩ | ⟨place', t, hplace', ht, -⟩
  · rw [hplace] at hnone
    cases hnone
  · obtain rfl := Option.some.inj (hplace.symm.trans hplace')
    obtain ⟨⟨hlength, hlt, -⟩, -⟩ := offsetBetween_eq_ok_iff.mp ht
    exact ⟨hlength, by omega⟩

/-- A body with its labels chosen anew is stored as the same instructions. -/
theorem lowerLines_canonicalLines {p : Pools} {lines : List Line}
    {stored : List StoredInstruction} (h : lowerLines p lines = .ok stored) :
    lowerLines p (canonicalLines lines) = .ok stored := by
  have hstored := storeResolved_of_lowerLines h
  have hresolves := resolves_of_storeResolved hstored
  have hcanonical := isCanonical_linesOf_canonicalSteps hresolves
  rw [canonicalLines, lowerLines_eq_storeResolved p hcanonical.labelsPlaced,
    resolved_linesOf_canonicalSteps hresolves]
  exact hstored

/-! ## Numbers of places -/

/-- In an ascending list an element stands behind the smaller ones. -/
theorem OrderedSet.Ascending.idxOf_eq_countP {xs : List Nat} (h : OrderedSet.Ascending xs)
    {n : Nat} (hn : n ∈ xs) : xs.idxOf n = xs.countP (· < n) := by
  induction xs with
  | nil => exact absurd hn List.not_mem_nil
  | cons x xs ih =>
    obtain ⟨hx, hxs⟩ := List.pairwise_cons.mp h
    have hlt : ∀ y ∈ xs, x < y := fun y hy => Nat.compare_eq_lt.mp (hx y hy)
    by_cases hnx : x = n
    · subst hnx
      have hnone : (x :: xs).countP (· < x) = 0 := by
        refine List.countP_eq_zero.mpr fun y hy => ?_
        rcases List.mem_cons.mp hy with rfl | hy
        · simp
        · have := hlt y hy
          simp only [decide_eq_true_eq]
          omega
      rw [List.idxOf_cons_self, hnone]
    · have hmem := (List.mem_cons.mp hn).resolve_left (Ne.symm hnx)
      rw [List.idxOf_cons_ne _ hnx, List.countP_cons_of_pos (by simpa using hlt n hmem),
        ih hxs hmem]

/-- The label reading gives to a place is the one chosen for it. -/
theorem labelOf_eq_placeLabel {targets : List Nat} {place : Nat} (h : place ∈ targets) :
    labelOf (OrderedSet.ofList targets) place = placeLabel targets place := by
  have hcount : (OrderedSet.ofList targets).countP (· < place) =
      (List.range place).countP (· ∈ targets) := by
    rw [List.countP_eq_length_filter, List.countP_eq_length_filter]
    refine List.Perm.length_eq ?_
    rw [List.perm_ext_iff_of_nodup ((OrderedSet.nodup_ofList targets).filter _)
      (List.nodup_range.filter _)]
    intro n
    simp [and_comm]
  rw [labelOf, placeLabel, (OrderedSet.ascending_ofList targets).idxOf_eq_countP
    (OrderedSet.mem_ofList.mpr h), hcount]

/-! ## Reading resolved instructions -/

/-- The resolved instructions of a stored body. -/
def resolveStored (p : Pools) (body : List StoredInstruction) :
    Except DecodeError (List ResolvedInstruction) :=
  body.zipIdx.mapM fun (i, position) =>
    i.traverse p.stringAt p.valueTypeAt p.methodAt (branchTarget body.length position)

theorem length_of_resolveStored {p : Pools} {body : List StoredInstruction}
    {code : List ResolvedInstruction} (h : resolveStored p body = .ok code) :
    code.length = body.length := by
  rw [length_of_mapM h, List.length_zipIdx]

theorem resolves_of_resolveStored {p : Pools} {body : List StoredInstruction}
    {code : List ResolvedInstruction} (h : resolveStored p body = .ok code)
    (hlen : body.length ≤ 4294967296) : Resolves code := by
  intro place hplace
  obtain ⟨i, hi, hplace⟩ := mem_targetsOf.mp hplace
  obtain ⟨⟨stored, position⟩, -, hstored⟩ := exists_of_mem_result h hi
  rcases Instruction.target?_of_traverse hstored with ⟨-, hnone⟩ | ⟨offset, t, -, ht, hplace'⟩
  · rw [hplace] at hnone
    cases hnone
  · obtain rfl := Option.some.inj (hplace.symm.trans hplace')
    have hlt := branchTarget_lt ht
    rw [length_of_resolveStored h]
    exact ⟨hlt, by omega⟩

/-- The branches of a body lead where its resolved instructions say. -/
theorem branchTargets_eq {p : Pools} {body : List StoredInstruction}
    {code : List ResolvedInstruction} (h : resolveStored p body = .ok code) :
    branchTargets body = .ok (targetsOf code) := by
  have hall := mapM_eq_ok_iff.mp h
  rw [branchTargets, targetsOf]
  -- The number of instructions is fixed while the list of them is taken apart.
  generalize body.length = length at hall ⊢
  generalize body.zipIdx = items at hall ⊢
  clear h
  induction hall with
  | nil => rfl
  | @cons item i items code hitem _ ih =>
    obtain ⟨stored, position⟩ := item
    rcases Instruction.target?_of_traverse hitem with ⟨hnone, hnone'⟩ | ⟨offset, t, hoff, ht, hi⟩
    · rw [List.filterMap_cons_none (by simp [hnone]), List.filterMap_cons_none hnone', ih]
    · rw [List.filterMap_cons_some (b := (position, offset)) (by simp [hoff]),
        List.filterMap_cons_some hi, List.mapM_cons, ih]
      simp only [ht, ok_bind]
      rfl

/-- The lines of a stored instruction, among the ascending places that have a label. -/
def liftStep (p : Pools) (length : Nat) (places : List Nat) :
    StoredInstruction × Nat → Except DecodeError (List Line) :=
  fun (stored, position) => do
    let i ← stored.traverse p.stringAt p.valueTypeAt p.methodAt fun offset =>
      (branchTarget length position offset).map (labelOf places)
    let labels := if position ∈ places then [Line.label (labelOf places position)] else []
    .ok (labels ++ [Line.instruction i])

theorem liftLines_eq (p : Pools) (body : List StoredInstruction) :
    liftLines p body = (do
      let targets ← branchTargets body
      let groups ← body.zipIdx.mapM (liftStep p body.length (OrderedSet.ofList targets))
      .ok groups.flatten) := rfl

/-- A stored instruction becomes the step of its resolved instruction. -/
theorem liftStep_eq {p : Pools} {length position : Nat} {targets : List Nat}
    {stored : StoredInstruction} {i : ResolvedInstruction}
    (h : stored.traverse p.stringAt p.valueTypeAt p.methodAt (branchTarget length position) =
      .ok i) (hi : ∀ place, i.target? = some place → place ∈ targets) :
    liftStep p length (OrderedSet.ofList targets) (stored, position) =
      .ok (canonicalStep targets i position).lines := by
  have hinstruction : i.mapTarget (labelOf (OrderedSet.ofList targets)) =
      i.mapTarget (placeLabel targets) :=
    Instruction.mapTarget_congr fun place hplace => labelOf_eq_placeLabel (hi place hplace)
  simp only [liftStep, Instruction.traverse_map, h, ok_map, ok_bind, hinstruction,
    Step.lines, canonicalStep, OrderedSet.mem_ofList]
  by_cases hposition : position ∈ targets
  · rw [if_pos hposition, if_pos hposition, labelOf_eq_placeLabel hposition]
    rfl
  · rw [if_neg hposition, if_neg hposition]
    rfl

theorem mapM_liftStep {p : Pools} {body : List StoredInstruction}
    {code : List ResolvedInstruction} (h : resolveStored p body = .ok code) :
    body.zipIdx.mapM (liftStep p body.length (OrderedSet.ofList (targetsOf code))) =
      .ok ((canonicalSteps code).map Step.lines) := by
  have hlen := length_of_resolveStored h
  rw [mapM_eq_ok_iff, List.forall₂_iff_get]
  refine ⟨by simp [hlen], fun n hn _ => ?_⟩
  have hbody : n < body.length := by simpa using hn
  have hcode : n < code.length := by omega
  have hi := getElem_of_mapM h hn hcode
  simp only [List.getElem_zipIdx, Nat.zero_add] at hi
  have hstep := getElem?_canonicalSteps code n
  rw [List.getElem?_eq_getElem hcode] at hstep
  obtain ⟨_, hstep⟩ := List.getElem?_eq_some_iff.mp hstep
  simp only [List.get_eq_getElem, List.getElem_map, List.getElem_zipIdx, Nat.zero_add, hstep]
  exact liftStep_eq hi fun place hplace =>
    mem_targetsOf.mpr ⟨_, List.getElem_mem hcode, hplace⟩

theorem exists_resolveStored {p : Pools} {body : List StoredInstruction} {lines : List Line}
    (h : liftLines p body = .ok lines) : ∃ code, resolveStored p body = .ok code := by
  rw [liftLines_eq] at h
  obtain ⟨targets, -, h⟩ := bind_eq_ok.mp h
  obtain ⟨groups, hgroups, -⟩ := bind_eq_ok.mp h
  refine exists_mapM_eq_ok fun item hitem => ?_
  obtain ⟨_, -, hgroup⟩ := exists_of_mem_of_mapM hgroups hitem
  obtain ⟨i, hi, -⟩ := bind_eq_ok.mp hgroup
  rw [Instruction.traverse_map] at hi
  obtain ⟨r, hr, -⟩ := map_eq_ok.mp hi
  exact ⟨r, hr⟩

/-- Reading a body is resolving it and choosing labels. -/
theorem liftLines_eq_ok_iff {p : Pools} {body : List StoredInstruction} {lines : List Line} :
    liftLines p body = .ok lines ↔
      ∃ code, resolveStored p body = .ok code ∧ lines = linesOf (canonicalSteps code) := by
  have hforward : ∀ {code}, resolveStored p body = .ok code →
      liftLines p body = .ok (linesOf (canonicalSteps code)) := by
    intro code hcode
    rw [liftLines_eq, branchTargets_eq hcode, ok_bind, mapM_liftStep hcode]
    rfl
  constructor
  · intro h
    obtain ⟨code, hcode⟩ := exists_resolveStored h
    exact ⟨code, hcode, Except.ok.inj (h.symm.trans (hforward hcode))⟩
  · rintro ⟨code, hcode, rfl⟩
    exact hforward hcode

/-- Lines that were read are canonical, unless there are more instructions than labels. -/
theorem isCanonical_of_liftLines {p : Pools} {body : List StoredInstruction}
    {lines : List Line} (h : liftLines p body = .ok lines) (hlen : body.length ≤ 4294967296) :
    IsCanonical lines := by
  obtain ⟨code, hcode, rfl⟩ := liftLines_eq_ok_iff.mp h
  exact isCanonical_linesOf_canonicalSteps (resolves_of_resolveStored hcode hlen)

/-! ## The way there and back -/

/-- The types and methods an instruction refers to can be read back from their descriptors. -/
structure Instruction.WellFormed {Target : Type}
    (i : Instruction String ValueType MethodRef Target) : Prop where
  type : ∀ t, i.type? = some t → t.WellFormed
  method : ∀ m, i.method? = some m → m.WellFormed

instance {Target : Type} (i : Instruction String ValueType MethodRef Target) :
    Decidable i.WellFormed :=
  decidable_of_iff ((∀ t, i.type? = some t → t.WellFormed) ∧ ∀ m, i.method? = some m → m.WellFormed)
    ⟨fun h => ⟨h.1, h.2⟩, fun h => ⟨h.type, h.method⟩⟩

theorem Instruction.wellFormed_mapTarget {Target Target' : Type} (f : Target → Target')
    {i : Instruction String ValueType MethodRef Target} :
    (i.mapTarget f).WellFormed ↔ i.WellFormed := by
  constructor
  · exact fun h => ⟨fun t ht => h.type t (by rwa [type?_mapTarget]),
      fun m hm => h.method m (by rwa [method?_mapTarget])⟩
  · exact fun h => ⟨fun t ht => h.type t (by rwa [type?_mapTarget] at ht),
      fun m hm => h.method m (by rwa [method?_mapTarget] at hm)⟩

theorem returnsWhen_resolveStored {p : Pools} {code : List ResolvedInstruction}
    {stored : List StoredInstruction} (h : storeResolved p code = .ok stored) :
    ReturnsWhen (resolveStored p stored) (∀ i ∈ code, i.WellFormed) code := by
  have hlen : stored.length = code.length := by rw [length_of_mapM h, List.length_zipIdx]
  have hall : List.Forall₂ (fun (item : StoredInstruction × Nat) (i : ResolvedInstruction) =>
      ReturnsWhen (item.1.traverse p.stringAt p.valueTypeAt p.methodAt
        (branchTarget stored.length item.2)) i.WellFormed i) stored.zipIdx code := by
    rw [List.forall₂_iff_get]
    refine ⟨by simp [hlen], fun n hn hcode => ?_⟩
    have hstored : n < stored.length := by omega
    have hi := getElem_of_mapM h (by simpa using hcode) hstored
    simp only [List.get_eq_getElem, List.getElem_zipIdx, Nat.zero_add] at hi ⊢
    rw [hlen]
    refine (Instruction.returnsWhen_traverse hi Pools.stringAt_of_indexOfString
      Pools.valueTypeAt_of_indexOfValueType Pools.methodAt_of_indexOfMethod
      branchTarget_of_offsetBetween).congr ?_
    exact ⟨fun hgood => ⟨hgood.1, hgood.2⟩, fun hgood => ⟨hgood.type, hgood.method⟩⟩
  have hmap := ReturnsWhen.mapM (g := id) hall
  rw [List.map_id] at hmap
  exact hmap

/-- A body that was stored is read with its labels chosen anew, if what it refers to can be read
back. -/
theorem returnsWhen_liftLines {p : Pools} {lines : List Line} {stored : List StoredInstruction}
    (h : lowerLines p lines = .ok stored) :
    ReturnsWhen (liftLines p stored) (∀ i ∈ instructionsOf lines, i.WellFormed)
      (canonicalLines lines) := by
  have hback := returnsWhen_resolveStored (storeResolved_of_lowerLines h)
  have hiff : (∀ i ∈ resolved lines, i.WellFormed) ↔
      ∀ i ∈ instructionsOf lines, i.WellFormed := by
    simp [resolved, Instruction.wellFormed_mapTarget]
  intro lines'
  rw [liftLines_eq_ok_iff, ← hiff]
  constructor
  · rintro ⟨code, hcode, rfl⟩
    obtain ⟨hgood, rfl⟩ := (hback code).mp hcode
    exact ⟨hgood, rfl⟩
  · rintro ⟨hgood, rfl⟩
    exact ⟨resolved lines, hback.eq_ok hgood, rfl⟩

/-! ## When canonical bodies are stored -/

/-- Everything an instruction refers to has an index. -/
structure Pools.Indexes (p : Pools) (i : SymbolicInstruction) : Prop where
  text : ∀ s, i.text? = some s → ∃ n, p.indexOfString s = .ok n
  type : ∀ t, i.type? = some t → ∃ n, p.indexOfValueType t = .ok n
  method : ∀ m, i.method? = some m → ∃ n, p.indexOfMethod m = .ok n

theorem failsOnly_offsetBetween {length position target : Nat} (htarget : target < length)
    (hposition : position < length) :
    FailsOnly (offsetBetween length position target) (.error .outOfRange)
      (length ≤ 2147483648) :=
  .of_ite rfl fun hlength => ⟨htarget, by omega, by omega⟩

/-- A body whose labels are placed is too long, or it is stored. -/
theorem failsOnly_lowerLines {p : Pools} {lines : List Line} (h : LabelsPlaced lines)
    (hpools : ∀ i ∈ instructionsOf lines, p.Indexes i) :
    FailsOnly (lowerLines p lines) (.error .outOfRange)
      ((instructionsOf lines).length ≤ 2147483648) := by
  rw [lowerLines_eq_storeResolved p h, storeResolved]
  have hlen : (resolved lines).length = (instructionsOf lines).length := by
    rw [resolved, List.length_map]
  rw [hlen]
  refine .mapM fun x hr => ?_
  obtain ⟨r, position⟩ := x
  have hposition : position < (instructionsOf lines).length := by
    have := List.snd_lt_of_mem_zipIdx hr
    omega
  obtain ⟨i, hi, rfl⟩ := List.mem_map.mp (List.fst_mem_of_mem_zipIdx hr)
  refine Instruction.failsOnly_traverse (fun s hs => ?_) (fun t ht => ?_) (fun m hm => ?_)
    fun place hplace => ?_
  · rw [Instruction.text?_mapTarget] at hs
    obtain ⟨n, hn⟩ := (hpools i hi).text s hs
    exact .of_ok hn
  · rw [Instruction.type?_mapTarget] at ht
    obtain ⟨n, hn⟩ := (hpools i hi).type t ht
    exact .of_ok hn
  · rw [Instruction.method?_mapTarget] at hm
    obtain ⟨n, hn⟩ := (hpools i hi).method m hm
    exact .of_ok hn
  · rw [Instruction.target?_mapTarget] at hplace
    obtain ⟨l, hl, rfl⟩ := Option.map_eq_some_iff.mp hplace
    exact failsOnly_offsetBetween (h.placed i hi l hl).2 hposition

end DexWeave
