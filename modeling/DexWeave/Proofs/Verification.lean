/-
  DexWeave/Proofs/Verification.lean --- bodies that a verifier accepts.

  WHAT THIS FILE IS FOR.  A body is verified against its method: the arguments on entry are
  those of the prototype, no instruction names a register that the method does not have,
  calls pass what their callees take, returns are of the kind of the result, labels are
  placed, and the result of a call is moved right behind the call.  Every transform keeps
  all of this, whatever it is woven into.

  HOW.  What an instruction has to satisfy is one predicate, `SymbolicInstruction.Fits`.  For
  each kind of transform there is one lemma: what it inserts fits.

  LABELS BETWEEN.  Whether a label may stand between a call and the move of its result is
  left open by a flag; transforms keep both forms of the rule.
-/
import DexWeave.Proofs.HookFlow
import DexWeave.Proofs.TransformRun

set_option autoImplicit false

namespace DexWeave

/-! ## What instructions name -/

/-- The number of registers that hold a value of the kind. -/
def ValueKind.width : ValueKind → Nat
  | wide => 2
  | _ => 1

/-- The values an instruction reads and writes, each by its kind and its first register.  A call
names every argument register on its own. -/
def Instruction.values {Text Typ Method Target : Type} :
    Instruction Text Typ Method Target → List (ValueKind × Register)
  | nop | returnVoid | goto _ => []
  | move k d s => [(k, d), (k, s)]
  | moveResult k d => [(k, d)]
  | returnValue k s => [(k, s)]
  | const d _ => [(.single, d)]
  | constWide d _ => [(.wide, d)]
  | constString d _ | newInstance d _ => [(.object, d)]
  | throw s => [(.object, s)]
  | branch _ a b _ => [(.single, a), (.single, b)]
  | branchZero _ a _ => [(.single, a)]
  | binary _ d a b => [(.single, d), (.single, a), (.single, b)]
  | invoke _ _ args => args.map ((.single, ·))

/-- Whether a call passes exactly what its callee takes, and no more than `outs` registers. -/
def SymbolicInstruction.callFits (outs : Nat) : SymbolicInstruction → Bool
  | .invoke kind m args =>
    args.length = ValueType.totalWidth m.prototype.parameters +
      Transform.receiverRegisters (kind = .static) ∧ args.length ≤ outs
  | _ => true

/-- Whether a return is of the kind of the result. -/
def SymbolicInstruction.returnFits (result : ResultType) : SymbolicInstruction → Bool
  | .returnVoid => result = .void
  | .returnValue kind _ =>
    match result with
    | .value type => kind = ValueKind.ofType type
    | .void => false
  | _ => true

/-- The instruction fits a method with the given registers, room for arguments and result. -/
structure SymbolicInstruction.Fits (registers outs : Nat) (result : ResultType)
    (i : SymbolicInstruction) : Prop where
  registers : ∀ v ∈ i.values, v.2.index.toNat + v.1.width ≤ registers
  call : SymbolicInstruction.callFits outs i = true
  returns : SymbolicInstruction.returnFits result i = true

/-! ## Results of calls -/

/-- Whether the line moves the result of a call. -/
def Line.isResult : Line → Bool
  | .instruction (.moveResult ..) => true
  | _ => false

/-- Whether the line is a call. -/
def Line.isCall : Line → Bool
  | .instruction (.invoke ..) => true
  | _ => false

/-- Whether every move of a result stands right behind a call; `afterCall` says whether the line
before is one. -/
def resultsFollowCalls (afterCall : Bool) : List Line → Bool
  | [] => true
  | line :: lines => (!line.isResult || afterCall) && resultsFollowCalls line.isCall lines

/-- The lines, with or without their labels. -/
def withoutLabels (drop : Bool) (lines : List Line) : List Line :=
  if drop then (instructionsOf lines).map .instruction else lines

/-! ## Verified bodies -/

/-- The body is verified against a method with the given prototype. -/
structure Body.Verifies (b : Body) (prototype : Prototype) (isStatic labelsBetween : Bool) :
    Prop where
  ins_le : b.ins.toNat ≤ b.registers.toNat
  ins_eq : b.ins.toNat =
    ValueType.totalWidth prototype.parameters + Transform.receiverRegisters isStatic
  instructions : ∀ i ∈ instructionsOf b.lines,
    SymbolicInstruction.Fits b.registers.toNat b.outs.toNat prototype.result i
  labels : LabelsPlaced b.lines
  results : resultsFollowCalls false (withoutLabels labelsBetween b.lines) = true

/-- The body of the method is verified against the method, if there is one. -/
def Method.Verifies (m : Method) (labelsBetween : Bool) : Prop :=
  ∀ b, m.body = some b → b.Verifies m.ref.prototype m.isStatic labelsBetween

/-- Every method of the dex file is verified. -/
def DexFile.Verifies (d : DexFile) (labelsBetween : Bool) : Prop :=
  ∀ k ∈ d.classes, ∀ m ∈ k.methods, m.Verifies labelsBetween

/-! ## Verification can be run -/

instance (registers outs : Nat) (result : ResultType) (i : SymbolicInstruction) :
    Decidable (SymbolicInstruction.Fits registers outs result i) :=
  decidable_of_iff
    ((∀ v ∈ i.values, v.2.index.toNat + v.1.width ≤ registers) ∧
      SymbolicInstruction.callFits outs i = true ∧ SymbolicInstruction.returnFits result i = true)
    ⟨fun ⟨hregisters, hcall, hreturns⟩ => ⟨hregisters, hcall, hreturns⟩,
      fun h => ⟨h.registers, h.call, h.returns⟩⟩

instance (lines : List Line) : Decidable (LabelsPlaced lines) :=
  decidable_of_iff
    ((labelsOf lines).Nodup ∧ ∀ i ∈ instructionsOf lines, ∀ l ∈ i.target?,
      l ∈ labelsOf lines ∧ placeOf lines l < (instructionsOf lines).length)
    ⟨fun ⟨hnodup, hplaced⟩ => ⟨hnodup, hplaced⟩, fun h => ⟨h.nodup, h.placed⟩⟩

instance (b : Body) (prototype : Prototype) (isStatic labelsBetween : Bool) :
    Decidable (b.Verifies prototype isStatic labelsBetween) :=
  decidable_of_iff
    (b.ins.toNat ≤ b.registers.toNat ∧
      b.ins.toNat =
        ValueType.totalWidth prototype.parameters + Transform.receiverRegisters isStatic ∧
      (∀ i ∈ instructionsOf b.lines,
        SymbolicInstruction.Fits b.registers.toNat b.outs.toNat prototype.result i) ∧
      LabelsPlaced b.lines ∧
      resultsFollowCalls false (withoutLabels labelsBetween b.lines) = true)
    ⟨fun ⟨hle, heq, hinstructions, hlabels, hresults⟩ =>
        ⟨hle, heq, hinstructions, hlabels, hresults⟩,
      fun h => ⟨h.ins_le, h.ins_eq, h.instructions, h.labels, h.results⟩⟩

instance (m : Method) (labelsBetween : Bool) : Decidable (m.Verifies labelsBetween) :=
  inferInstanceAs (Decidable (∀ b ∈ m.body, b.Verifies m.ref.prototype m.isStatic labelsBetween))

instance (d : DexFile) (labelsBetween : Bool) : Decidable (d.Verifies labelsBetween) :=
  inferInstanceAs (Decidable (∀ k ∈ d.classes, ∀ m ∈ k.methods, m.Verifies labelsBetween))

/-! ## Registers -/

namespace ValueKind

theorem length_registers (k : ValueKind) (r : Register) : (k.registers r).length = k.width := by
  cases k <;> rfl

theorem width_ofType (t : ValueType) : (ofType t).width = t.width := by
  rw [← length_registers (ofType t) ⟨0⟩, length_registers_ofType]

theorem width_le (k : ValueKind) : k.width ≤ 2 := by
  cases k <;> decide

/-- The registers of a value are below a bound if the value is. -/
theorem lt_of_mem_registers {k : ValueKind} {r x : Register} {bound : Nat}
    (h : r.index.toNat + k.width ≤ bound) (hbound : bound ≤ 65535) (hx : x ∈ k.registers r) :
    x.index.toNat < bound := by
  cases k with
  | wide =>
    have hwide : r.index.toNat + 2 ≤ bound := h
    rcases List.mem_pair.mp hx with rfl | rfl
    · omega
    · have hnext : (Register.next r).index.toNat = (r.index.toNat + 1) % 65536 :=
        UInt16.toNat_add r.index 1
      rw [hnext, Nat.mod_eq_of_lt (by omega)]
      omega
  | single | object =>
    have hone : r.index.toNat + 1 ≤ bound := h
    rw [List.mem_singleton.mp hx]
    omega

end ValueKind

theorem toNat_uint16_ofNat {n : Nat} (h : n ≤ 65535) : (UInt16.ofNat n).toNat = n :=
  UInt16.toNat_ofNat_of_lt' (Nat.lt_succ_of_le h)

namespace Body

variable {b : Body}

theorem length_incoming (h : b.ins.toNat ≤ b.registers.toNat) :
    b.incoming.length = b.ins.toNat := by
  rw [incoming, List.length_map, List.length_range']
  omega

theorem lt_of_mem_incoming {r : Register} (h : r ∈ b.incoming) :
    r.index.toNat < b.registers.toNat := by
  obtain ⟨n, hn, rfl⟩ := List.mem_map.mp h
  obtain ⟨-, hlt⟩ := List.mem_range'_1.mp hn
  have hregisters := b.registers.toNat_lt
  rw [toNat_uint16_ofNat (by omega)]
  omega

theorem toNat_firstIncoming (b : Body) :
    b.firstIncoming.index.toNat = b.registers.toNat - b.ins.toNat := by
  have hregisters := b.registers.toNat_lt
  exact toNat_uint16_ofNat (by omega)

theorem toNat_outs_reserveOuts (b : Body) (count : Nat) :
    (b.reserveOuts count).outs.toNat = max b.outs.toNat (min count 65535) := by
  have hcount := toNat_uint16_ofNat (Nat.min_le_right count 65535)
  have hmax : (b.reserveOuts count).outs =
      if b.outs ≤ UInt16.ofNat (min count 65535) then UInt16.ofNat (min count 65535)
      else b.outs := rfl
  rw [hmax, Nat.max_def]
  split <;> rename_i hle <;> rw [UInt16.le_iff_toNat_le, hcount] at hle
  · rw [if_pos hle, hcount]
  · rw [if_neg hle]

theorem outs_le_reserveOuts (b : Body) (count : Nat) :
    b.outs.toNat ≤ (b.reserveOuts count).outs.toNat := by
  rw [toNat_outs_reserveOuts]
  exact Nat.le_max_left _ _

theorem le_outs_reserveOuts (b : Body) {n count : Nat} (h : n ≤ count) (hn : n ≤ 65535) :
    n ≤ (b.reserveOuts count).outs.toNat := by
  rw [toNat_outs_reserveOuts]
  exact Nat.le_trans (Nat.le_min.mpr ⟨h, hn⟩) (Nat.le_max_right _ _)

end Body

/-! ## What fits -/

namespace SymbolicInstruction

variable {registers outs outs' : Nat} {result : ResultType} {i : SymbolicInstruction}
  {hook : MethodRef}

theorem callFits_mono (h : outs ≤ outs') (hfits : callFits outs i = true) :
    callFits outs' i = true := by
  cases i
  case invoke kind m args =>
    obtain ⟨hlen, houts⟩ := of_decide_eq_true hfits
    exact decide_eq_true ⟨hlen, Nat.le_trans houts h⟩
  all_goals rfl

/-- What fits still fits where there is more room for arguments. -/
theorem Fits.mono (h : outs ≤ outs') (hfits : Fits registers outs result i) :
    Fits registers outs' result i :=
  ⟨hfits.registers, callFits_mono h hfits.call, hfits.returns⟩

theorem fits_invokeStatic {args : List Register}
    (hlen : args.length = ValueType.totalWidth hook.prototype.parameters)
    (houts : args.length ≤ outs) (hlt : ∀ r ∈ args, r.index.toNat < registers) :
    Fits registers outs result (.invokeStatic hook args) where
  registers := by
    intro v hv
    obtain ⟨r, hr, rfl⟩ := List.mem_map.mp hv
    exact hlt r hr
  call := decide_eq_true ⟨hlen, houts⟩
  returns := rfl

theorem fits_moveResult {kind : ValueKind} {r : Register}
    (h : r.index.toNat + kind.width ≤ registers) :
    Fits registers outs result (.moveResult kind r) where
  registers := by
    intro v hv
    rw [List.mem_singleton.mp hv]
    exact h
  call := rfl
  returns := rfl

/-- A value is passed to a hook that takes one of its kind. -/
theorem fits_passed {kind : ValueKind} {r : Register}
    (hhook : ValueType.totalWidth hook.prototype.parameters = kind.width)
    (houts : kind.width ≤ outs) (hregisters : registers ≤ 65535)
    (h : r.index.toNat + kind.width ≤ registers) :
    Fits registers outs result (.invokeStatic hook (kind.registers r)) := by
  have hlen := kind.length_registers r
  refine fits_invokeStatic (hlen.trans hhook.symm) (by rwa [hlen]) fun x hx => ?_
  exact ValueKind.lt_of_mem_registers h hregisters hx

end SymbolicInstruction

/-! ## Room for arguments -/

theorem foldl_max_le_iff {ns : List Nat} {m n : Nat} :
    ns.foldl max m ≤ n ↔ m ≤ n ∧ ∀ k ∈ ns, k ≤ n := by
  induction ns generalizing m with
  | nil => simp
  | cons k ns ih => rw [List.foldl_cons, ih, Nat.max_le, List.forall_mem_cons, and_assoc]

theorem le_foldl_max {ns : List Nat} {m n : Nat} (h : n ≤ m ∨ n ∈ ns) : n ≤ ns.foldl max m := by
  obtain ⟨hm, hns⟩ := foldl_max_le_iff.mp (Nat.le_refl (ns.foldl max m))
  rcases h with h | h
  · exact Nat.le_trans h hm
  · exact hns n h

theorem ValueType.totalWidth_take_add_width_le {ts : List ValueType} {t : ValueType} {index : Nat}
    (h : ts[index]? = some t) : totalWidth (ts.take index) + t.width ≤ totalWidth ts := by
  induction ts generalizing index with
  | nil => cases h
  | cons u us ih =>
    cases index with
    | zero =>
      obtain rfl := Option.some.inj h
      rw [List.take_zero, totalWidth, totalWidth]
      omega
    | succ index =>
      have hrest := ih h
      rw [List.take_succ_cons, totalWidth, totalWidth]
      omega

namespace Splice

theorem outs_le_apply (s : Splice) (b : Body) : b.outs.toNat ≤ (s.apply b).outs.toNat :=
  Body.outs_le_reserveOuts { b with lines := s.weave b.lines } s.room

theorem le_outs_apply (s : Splice) (b : Body) {n : Nat} (h : n ≤ s.room) (hn : n ≤ 65535) :
    n ≤ (s.apply b).outs.toNat :=
  Body.le_outs_reserveOuts { b with lines := s.weave b.lines } h hn

end Splice

/-! ## What transforms insert fits -/

namespace Transform

variable {t : Transform} {isStatic labelsBetween : Bool} {b b' : Body} {s : Splice}
  {hook : MethodRef}

theorem totalWidth_entryPrototype (target : MethodRef) (thisAsObject isStatic : Bool) :
    ValueType.totalWidth (entryPrototype target thisAsObject isStatic).parameters =
      argumentRegisters target isStatic := by
  cases isStatic with
  | true => rfl
  | false => exact Nat.add_comm 1 _

theorem totalWidth_detourPrototype (callee : MethodRef) :
    ValueType.totalWidth (detourPrototype callee).parameters =
      ValueType.totalWidth callee.prototype.parameters + 1 :=
  Nat.add_comm 1 _

/-- The opening fits the method that it is put in front of, if its arguments are those of the
prototype and it has registers for all of them. -/
theorem Planned.fits_opening (h : t.Planned isStatic b hook s)
    (hins : b.ins.toNat ≤ b.registers.toNat)
    (hall : b.ins.toNat = argumentRegisters t.target isStatic) :
    ∀ i ∈ s.opening, SymbolicInstruction.Fits b.registers.toNat (s.apply b).outs.toNat
      t.target.prototype.result i := by
  have hregisters := b.registers.toNat_lt
  cases h with
  | entry thisAsObject haction hincoming hook hhook =>
    intro i hi
    have hlen := Body.length_incoming hins
    rw [List.mem_singleton.mp hi, hhook]
    refine SymbolicInstruction.fits_invokeStatic ?_ ?_ fun r hr => Body.lt_of_mem_incoming hr
    · rw [hlen, hall]
      exact (totalWidth_entryPrototype _ _ _).symm
    · exact Splice.le_outs_apply _ b (Nat.le_refl _) (by omega)
  | parameter index haction type htype hincoming register hregister hlt hook hhook =>
    -- the parameter ends where the arguments do, or before
    have hoffset := ValueType.totalWidth_take_add_width_le htype
    rw [argumentRegisters] at hall
    rw [Body.toNat_firstIncoming, parameterOffset_eq, toNat_uint16_ofNat (by omega)] at hregister
    have hvalue : (UInt16.ofNat register).toNat + (ValueKind.ofType type).width ≤
        b.registers.toNat := by
      rw [toNat_uint16_ofNat (by omega), ValueKind.width_ofType]
      omega
    intro i hi
    rcases List.mem_pair.mp hi with rfl | rfl
    · refine SymbolicInstruction.fits_passed ?_ ?_ (by omega) hvalue
      · rw [hhook, ValueKind.width_ofType]
        rfl
      · have hwidth := (ValueKind.ofType type).width_le
        refine Splice.le_outs_apply _ b ?_ (by omega)
        exact Nat.le_of_eq (ValueKind.length_registers _ ⟨UInt16.ofNat register⟩).symm
    · exact SymbolicInstruction.fits_moveResult hvalue
  | exit | detour => exact fun i hi => absurd hi List.not_mem_nil

/-- The block of a return of a value fits if the return does. -/
theorem fits_exitBlock {type : ValueType} (hresult : t.target.prototype.result = .value type)
    (hhook : hook = t.hook.withPrototype (exitPrototype t.target)) {kind : ValueKind}
    {r : Register} (hmem : .returnValue kind r ∈ instructionsOf b.lines)
    (hfits : SymbolicInstruction.Fits b.registers.toNat b.outs.toNat (.value type)
      (.returnValue kind r)) :
    ∀ i ∈ [.invokeStatic hook (kind.registers r), .moveResult kind r, .returnValue kind r],
      SymbolicInstruction.Fits b.registers.toNat
        ((exitSplice hook (.value type) b).apply b).outs.toNat (.value type) i := by
  have hregisters := b.registers.toNat_lt
  have hvalue : r.index.toNat + kind.width ≤ b.registers.toNat :=
    hfits.registers (kind, r) List.mem_cons_self
  have hkind : kind = ValueKind.ofType type := of_decide_eq_true hfits.returns
  have hroom : kind.width ≤ (exitSplice hook (.value type) b).room :=
    le_foldl_max (.inr (List.mem_map.mpr ⟨_, hmem, kind.length_registers r⟩))
  have hwidth := kind.width_le
  intro i hi
  rcases List.mem_cons.mp hi with rfl | hi
  · refine SymbolicInstruction.fits_passed ?_ (Splice.le_outs_apply _ b hroom (by omega))
      (by omega) hvalue
    rw [hhook, exitPrototype, hresult, hkind, ValueKind.width_ofType]
    rfl
  · rcases List.mem_pair.mp hi with rfl | rfl
    · exact SymbolicInstruction.fits_moveResult hvalue
    · exact hfits.mono (Splice.outs_le_apply _ b)

/-- The call of a hook in place of a call fits if that one does. -/
theorem fits_detourBlock {registers outs : Nat} {result : ResultType} {kind : DetourKind}
    {callee : MethodRef} (hhook : hook = t.hook.withPrototype (detourPrototype callee))
    {args : List Register} (hfits : SymbolicInstruction.Fits registers outs result
      (.invoke kind.invokeKind callee args)) :
    SymbolicInstruction.Fits registers outs result (.invokeStatic hook args) := by
  obtain ⟨hlen, houts⟩ := of_decide_eq_true hfits.call
  refine SymbolicInstruction.fits_invokeStatic ?_ houts fun r hr => ?_
  · rw [hlen, hhook]
    refine Eq.trans ?_ (totalWidth_detourPrototype callee).symm
    cases kind <;> rfl
  · exact hfits.registers (.single, r) (List.mem_map.mpr ⟨r, hr, rfl⟩)

/-- What takes the place of an instruction that fits, fits too. -/
theorem Planned.fits_blockOf (h : t.Planned isStatic b hook s) {i : SymbolicInstruction}
    (hmem : i ∈ instructionsOf b.lines)
    (hfits : SymbolicInstruction.Fits b.registers.toNat b.outs.toNat
      t.target.prototype.result i) :
    ∀ j ∈ s.blockOf i, SymbolicInstruction.Fits b.registers.toNat (s.apply b).outs.toNat
      t.target.prototype.result j := by
  have hold := hfits.mono (s.outs_le_apply b)
  cases hblock : s.block i with
  | none =>
    intro j hj
    rw [Splice.blockOf_of_none hblock, List.mem_singleton] at hj
    exact hj ▸ hold
  | some block =>
    rw [Splice.blockOf_of_some hblock]
    cases h with
    | entry | parameter => cases hblock
    | exit haction hook hhook =>
      rcases exitBlock_cases hblock with ⟨rfl, rfl⟩ | ⟨kind, r, rfl, rfl⟩
      · have hresult : t.target.prototype.result = .void := of_decide_eq_true hfits.returns
        intro j hj
        rcases List.mem_pair.mp hj with rfl | rfl
        · refine SymbolicInstruction.fits_invokeStatic ?_ (Nat.zero_le _)
            fun r hr => absurd hr List.not_mem_nil
          rw [hhook, exitPrototype, hresult]
          rfl
        · exact hold
      · cases hresult : t.target.prototype.result with
        | void =>
          rw [hresult] at hfits
          exact absurd hfits.returns Bool.false_ne_true
        | value type =>
          rw [hresult] at hfits
          exact fits_exitBlock hresult hhook hmem hfits
    | detour kind callee haction hook hhook =>
      obtain ⟨args, rfl, rfl⟩ := detourBlock_cases hblock
      intro j hj
      rw [List.mem_singleton.mp hj]
      exact fits_detourBlock hhook hold

end Transform

/-! ## Results stay behind their calls -/

theorem resultsFollowCalls_cons {after : Bool} {line : Line} {lines : List Line} :
    resultsFollowCalls after (line :: lines) = true ↔
      (line.isResult = true → after = true) ∧ resultsFollowCalls line.isCall lines = true := by
  rw [resultsFollowCalls, Bool.and_eq_true]
  cases line.isResult <;> simp

/-- Lines that may follow anything may follow a call. -/
theorem resultsFollowCalls_mono {after : Bool} {lines : List Line}
    (h : resultsFollowCalls false lines = true) : resultsFollowCalls after lines = true := by
  cases lines with
  | nil => rfl
  | cons line lines =>
    obtain ⟨hresult, hrest⟩ := resultsFollowCalls_cons.mp h
    exact resultsFollowCalls_cons.mpr ⟨fun hr => absurd (hresult hr) Bool.false_ne_true, hrest⟩

/-- What is woven in moves the results of calls woven in only, and comes between no call and the
move of its result. -/
structure Splice.KeepsResults (s : Splice) : Prop where
  opening : ∀ rest, resultsFollowCalls false rest = true →
    resultsFollowCalls false (s.opening.map .instruction ++ rest) = true
  block : ∀ i after rest, resultsFollowCalls after (.instruction i :: rest) = true →
    resultsFollowCalls after ((s.blockOf i).map .instruction ++ rest) = true

theorem Splice.KeepsResults.flatMap {s : Splice} (h : s.KeepsResults) {lines : List Line}
    {after : Bool} (hlines : resultsFollowCalls after lines = true) :
    resultsFollowCalls after (lines.flatMap s.weaveLine) = true := by
  induction lines generalizing after with
  | nil => rfl
  | cons line lines ih =>
    obtain ⟨hresult, hrest⟩ := resultsFollowCalls_cons.mp hlines
    cases line with
    | label l => exact resultsFollowCalls_cons.mpr ⟨hresult, ih hrest⟩
    | instruction i =>
      exact h.block i after _ (resultsFollowCalls_cons.mpr ⟨hresult, ih hrest⟩)

theorem Splice.KeepsResults.weave {s : Splice} (h : s.KeepsResults) {lines : List Line}
    (hlines : resultsFollowCalls false lines = true) :
    resultsFollowCalls false (s.weave lines) = true :=
  h.opening _ (h.flatMap hlines)

/-- A call and the move of its result may stand in front of what may follow anything. -/
theorem resultsFollowCalls_passed {after : Bool} {hook : MethodRef} {args : List Register}
    {kind : ValueKind} {r : Register} {rest : List Line}
    (h : resultsFollowCalls false rest = true) :
    resultsFollowCalls after (.instruction (.invokeStatic hook args) ::
      .instruction (.moveResult kind r) :: rest) = true :=
  resultsFollowCalls_cons.mpr ⟨fun hr => absurd hr Bool.false_ne_true,
    resultsFollowCalls_cons.mpr ⟨fun _ => rfl, h⟩⟩

/-- A call may stand in front of what may follow a call. -/
theorem resultsFollowCalls_call {after : Bool} {hook : MethodRef} {args : List Register}
    {rest : List Line} (h : resultsFollowCalls true rest = true) :
    resultsFollowCalls after (.instruction (.invokeStatic hook args) :: rest) = true :=
  resultsFollowCalls_cons.mpr ⟨fun hr => absurd hr Bool.false_ne_true, h⟩

theorem Transform.Shape.keepsResults {t : Transform} {hook : MethodRef} {s : Splice}
    (h : t.Shape hook s.opening s.blockOf) : s.KeepsResults := by
  have hempty : s.opening = [] → ∀ rest, resultsFollowCalls false rest = true →
      resultsFollowCalls false (s.opening.map .instruction ++ rest) = true := by
    intro hopening rest hrest
    rw [hopening]
    exact hrest
  have hkept : ∀ {i}, s.blockOf i = [i] → ∀ after rest,
      resultsFollowCalls after (.instruction i :: rest) = true →
      resultsFollowCalls after ((s.blockOf i).map .instruction ++ rest) = true := by
    intro i hblock after rest hrest
    rw [hblock]
    exact hrest
  cases h with
  | entry thisAsObject haction args hopening hkeep =>
    refine ⟨fun rest hrest => ?_, fun i => hkept (hkeep i)⟩
    rw [hopening]
    exact resultsFollowCalls_call (resultsFollowCalls_mono hrest)
  | parameter index haction kind r hopening hkeep =>
    refine ⟨fun rest hrest => ?_, fun i => hkept (hkeep i)⟩
    rw [hopening]
    exact resultsFollowCalls_passed hrest
  | exitVoid haction hresult hopening hreturn hkeep =>
    refine ⟨hempty hopening, fun i => ?_⟩
    by_cases hi : i = .returnVoid
    · subst hi
      intro after rest hrest
      rw [hreturn]
      exact resultsFollowCalls_call hrest
    · exact hkept (hkeep i hi)
  | exitValue haction type hresult hopening hreturn hkeep =>
    refine ⟨hempty hopening, fun i => ?_⟩
    by_cases hi : ∃ kind r, i = .returnValue kind r
    · obtain ⟨kind, r, rfl⟩ := hi
      intro after rest hrest
      rw [hreturn]
      exact resultsFollowCalls_passed hrest
    · exact hkept (hkeep i fun kind r h => hi ⟨kind, r, h⟩)
  | detour kind callee haction hopening hcall hkeep =>
    refine ⟨hempty hopening, fun i => ?_⟩
    by_cases hi : ∃ args, i = .invoke kind.invokeKind callee args
    · obtain ⟨args, rfl⟩ := hi
      intro after rest hrest
      rw [hcall]
      exact resultsFollowCalls_call (resultsFollowCalls_cons.mp hrest).2
    · exact hkept (hkeep i fun args h => hi ⟨args, h⟩)

/-- Lines are woven in the same way without their labels. -/
theorem withoutLabels_weave (s : Splice) (drop : Bool) (lines : List Line) :
    withoutLabels drop (s.weave lines) = s.weave (withoutLabels drop lines) := by
  cases drop with
  | false => rfl
  | true =>
    have hdrop : ∀ lines, withoutLabels true lines = (instructionsOf lines).map .instruction :=
      fun _ => rfl
    rw [hdrop, hdrop, Splice.instructionsOf_weave, Splice.weave, List.map_append,
      List.map_flatMap, List.flatMap_map]
    rfl

/-! ## Transformed methods -/

namespace Transform

variable {t : Transform} {isStatic labelsBetween : Bool} {b b' : Body}

/-- A transformed body is verified if the old one is. -/
theorem verifies_of_transformBody (h : t.transformBody isStatic b = .ok b')
    (hb : b.Verifies t.target.prototype isStatic labelsBetween) :
    b'.Verifies t.target.prototype isStatic labelsBetween := by
  obtain ⟨s, hook, hplanned, -, rfl⟩ := exists_planned_of_transformBody h
  have hlines : (s.apply b).lines = s.weave b.lines := rfl
  exact {
    ins_le := hb.ins_le
    ins_eq := hb.ins_eq
    instructions := by
      intro i hi
      rw [hlines, Splice.instructionsOf_weave] at hi
      rcases List.mem_append.mp hi with hi | hi
      · exact hplanned.fits_opening hb.ins_le hb.ins_eq i hi
      · obtain ⟨k, hk, hi⟩ := List.mem_flatMap.mp hi
        exact hplanned.fits_blockOf hk (hb.instructions k hk) i hi
    labels := hplanned.shape.keepsFlow.labelsPlaced_weave hb.labels
    results := by
      rw [hlines, withoutLabels_weave]
      exact hplanned.shape.keepsResults.weave hb.results }

end Transform

namespace DexFile

/-- Every method is an old one, or the one that a reference names with its new body. -/
theorem method_cases_setBody {d : DexFile} {target : MethodRef} {body : Body} {k' : ClassDef}
    {m' : Method} (hk : k' ∈ (d.setBody target body).classes) (hm : m' ∈ k'.methods) :
    (∃ k ∈ d.classes, m' ∈ k.methods) ∨
      ∃ m, d.method? target = some m ∧ m' = { m with body := some body } := by
  rcases mem_modifyFirst hk with hold | ⟨k, hclass, rfl⟩
  · exact .inl ⟨k', hold, hm⟩
  · rcases mem_modifyFirst hm with hold | ⟨m, hmethod, rfl⟩
    · exact .inl ⟨k, List.mem_of_find?_eq_some hclass, hold⟩
    · exact .inr ⟨m, Option.bind_eq_some_iff.mpr ⟨k, hclass, hmethod⟩, rfl⟩

end DexFile

namespace Transform

/-- A transform that is applied keeps every method verified. -/
theorem verifies_of_apply {t : Transform} {d d' : DexFile} {labelsBetween : Bool}
    (h : d.Verifies labelsBetween) (happly : t.apply d = .ok d') : d'.Verifies labelsBetween := by
  obtain ⟨m, b, b', hm, hb, hbody, rfl⟩ := exists_of_apply happly
  obtain ⟨k, htargets⟩ := exists_targets hm hb
  have hold := h k htargets.mem m htargets.method b hb
  rw [htargets.prototype] at hold
  intro k' hk' m' hm'
  rcases DexFile.method_cases_setBody hk' hm' with ⟨k, hk, hm'⟩ | ⟨m₁, hm₁, rfl⟩
  · exact h k hk m' hm'
  · obtain rfl := Option.some.inj (hm.symm.trans hm₁)
    intro b₁ hb₁
    obtain rfl := Option.some.inj hb₁
    rw [htargets.prototype]
    exact verifies_of_transformBody hbody hold

/-- A dex file whose methods are verified stays so, whatever list of transforms is applied to it. -/
theorem verifies_applyAll (labelsBetween : Bool) (ts : List Transform) {d : DexFile}
    (h : d.Verifies labelsBetween) : (applyAll ts d).Verifies labelsBetween :=
  applyAll_induction (P := fun d => d.Verifies labelsBetween)
    (fun _ _ _ _ hd happly => verifies_of_apply hd happly) h

/-- A clock that is asked for the time by the class below. -/
def clock : MethodRef := ⟨⟨"Clock"⟩, "now", ⟨[], .value (.primitive .long)⟩⟩

/-- A method with a receiver, a pair of registers for its first parameter, and a loop. -/
def wait : MethodRef :=
  ⟨⟨"Timer"⟩, "wait", ⟨[.primitive .long, .object ⟨"Clock"⟩], .value (.primitive .long)⟩⟩

/-- A class whose method asks a clock in a loop; a label stands between the call and the move of
its result. -/
def timer : DexFile :=
  ⟨[⟨⟨"Timer"⟩, ⟨1⟩, none, [⟨wait, ⟨1⟩, some
    ⟨6, 4, 1,
      [.label ⟨2⟩, .instruction (.invoke .virtual clock [⟨5⟩]),
       .label ⟨0⟩, .instruction (.moveResult .wide ⟨0⟩),
       .instruction (.branchZero .ne ⟨0⟩ ⟨2⟩),
       .instruction (.returnValue .wide ⟨3⟩)]⟩⟩]⟩]⟩

/-- A transform of every kind. -/
def watch : List Transform :=
  [⟨wait, .entry false, ⟨⟨"Watch"⟩, "enter"⟩⟩, ⟨wait, .parameter 0, ⟨⟨"Watch"⟩, "limit"⟩⟩,
   ⟨wait, .exit, ⟨⟨"Watch"⟩, "leave"⟩⟩, ⟨wait, .detour .virtual clock, ⟨⟨"Watch"⟩, "now"⟩⟩,
   ⟨wait, .entry true, ⟨⟨"Watch"⟩, "start"⟩⟩]

theorem verifies_applyAll_timer :
    timer.Verifies true ∧ (∀ t ∈ watch, (t.apply timer).isOk = true) ∧
      (applyAll watch timer).Verifies true := by
  have htimer : timer.Verifies true := by
    decide +kernel
  have hall : ∀ t ∈ watch, (t.apply timer).isOk = true := by
    decide +kernel
  exact ⟨htimer, hall, verifies_applyAll true watch htimer⟩

end Transform

end DexWeave
