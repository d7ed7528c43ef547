/-
  DexWeave/Proofs/HookCalls.lean --- what hooks are called with.

  WHAT THIS FILE IS FOR.  A body is woven as it was read, and what was read is not
  verified: it may name registers that the method does not have, and return what its
  prototype does not.  `Transform.HookCalls` says for each kind of hook which registers
  its calls pass, and when they are those that the hook takes.

  ARGUMENTS.  Hooks on entry and of parameters take their registers from the prototype,
  which is compared with the body before.  Their calls are right in every body that has
  registers for its arguments, if these can be counted: the comparison is one of counts,
  and a body without arguments has as many as one with 65536 registers of them.

  RESULTS.  A hook on exit is passed what the return names, in the kind of the return.
  Returns are not compared with the prototype: a call is right exactly if its return is.
-/
import DexWeave.Proofs.Reencode
import DexWeave.Proofs.Verification

set_option autoImplicit false

namespace DexWeave

open Fallible

/-! ## Inserted instructions -/

/-- What is asked of an inserted instruction: a call passes as many registers as the parameters
of its callee, which is static, take; and the method has all registers that are named. -/
def SymbolicInstruction.PassesWell (registers : Nat) : SymbolicInstruction → Prop
  | .invoke _ m args => args.length = ValueType.totalWidth m.prototype.parameters ∧
      ∀ r ∈ args, r.index.toNat < registers
  | .moveResult kind r => ∀ x ∈ kind.registers r, x.index.toNat < registers
  | _ => True

/-- Lines with instructions in front of everything, and others right before single
instructions, behind the labels of these. -/
def linesWith (opening : List SymbolicInstruction)
    (before : SymbolicInstruction → List SymbolicInstruction) (lines : List Line) : List Line :=
  opening.map .instruction ++ lines.flatMap fun
    | .label l => [.label l]
    | .instruction i => (before i).map .instruction ++ [.instruction i]

namespace SymbolicInstruction

variable {registers outs : Nat} {result : ResultType} {hook : MethodRef}

theorem passesWell_of_fits_call {args : List Register}
    (h : Fits registers outs result (.invokeStatic hook args)) :
    PassesWell registers (.invokeStatic hook args) := by
  obtain ⟨hlen, -⟩ := of_decide_eq_true h.call
  exact ⟨hlen, fun r hr => h.registers (.single, r) (List.mem_map.mpr ⟨r, hr, rfl⟩)⟩

theorem passesWell_of_fits_result {kind : ValueKind} {r : Register} (hregisters : registers ≤ 65535)
    (h : Fits registers outs result (.moveResult kind r)) :
    PassesWell registers (.moveResult kind r) := fun _ hx =>
  ValueKind.lt_of_mem_registers (h.registers (kind, r) List.mem_cons_self) hregisters hx

/-- A value that is passed to a hook and comes back is passed well exactly if it has the width that
the hook takes and its registers exist. -/
theorem passesWell_passed_iff {kind : ValueKind} {r : Register} :
    (∀ i ∈ [invokeStatic hook (kind.registers r), .moveResult kind r], PassesWell registers i) ↔
      kind.width = ValueType.totalWidth hook.prototype.parameters ∧
        ∀ x ∈ kind.registers r, x.index.toNat < registers := by
  have hlen := kind.length_registers r
  constructor
  · intro h
    obtain ⟨hcall, hlt⟩ := h (invokeStatic hook (kind.registers r)) List.mem_cons_self
    exact ⟨hlen.symm.trans hcall, hlt⟩
  · rintro ⟨hwidth, hlt⟩ i hi
    rcases List.mem_pair.mp hi with rfl | rfl
    · exact ⟨hlen.trans hwidth, hlt⟩
    · exact hlt

end SymbolicInstruction

namespace Splice

variable {s : Splice} {before : SymbolicInstruction → List SymbolicInstruction}

/-- A splice that keeps every instruction behind what it inserts there. -/
theorem weave_eq_linesWith (h : ∀ i, s.blockOf i = before i ++ [i]) (lines : List Line) :
    s.weave lines = linesWith s.opening before lines := by
  rw [weave, linesWith]
  congr 1
  refine List.flatMap_congr fun line _ => ?_
  cases line with
  | label l => rfl
  | instruction i => rw [weaveLine, h, List.map_append]; rfl

end Splice

namespace Transform

variable {t : Transform} {isStatic : Bool} {b b' : Body} {hook : MethodRef}

/-! ## Hooks on exit -/

/-- What is inserted before an instruction by a hook on exit. -/
def exitCalls (hook : MethodRef) (result : ResultType) (i : SymbolicInstruction) :
    List SymbolicInstruction :=
  match result, i with
  | .void, .returnVoid => [.invokeStatic hook []]
  | .value _, .returnValue kind r => [.invokeStatic hook (kind.registers r), .moveResult kind r]
  | _, _ => []

theorem blockOf_exitSplice (hook : MethodRef) (result : ResultType) (b : Body)
    (i : SymbolicInstruction) :
    (exitSplice hook result b).blockOf i = exitCalls hook result i ++ [i] := by
  cases result <;> cases i <;> rfl

/-! ## All hooks but detours -/

/-- What is put in front of a body and before its instructions, with the hook that is called
there: for each kind of hook, what it is passed, and when that is what it takes. -/
inductive HookCalls (t : Transform) (isStatic : Bool) (b : Body) (hook : MethodRef)
    (opening : List SymbolicInstruction)
    (before : SymbolicInstruction → List SymbolicInstruction) : Prop where
  /-- A hook on entry is passed the registers that hold arguments. -/
  | entry (thisAsObject : Bool) (haction : t.action = .entry thisAsObject)
    (hhook : hook.prototype = entryPrototype t.target thisAsObject isStatic)
    (hopening : opening = [.invokeStatic hook b.incoming]) (hbefore : ∀ i, before i = [])
    (hcalls : b.ins.toNat ≤ b.registers.toNat → argumentRegisters t.target isStatic < 65536 →
      ∀ i ∈ opening, SymbolicInstruction.PassesWell b.registers.toNat i)
  /-- The hook of a parameter is passed the registers of the parameter, and its result is moved
  there. -/
  | parameter (index : Nat) (haction : t.action = .parameter index) (type : ValueType)
    (htype : t.target.prototype.parameters[index]? = some type)
    (hhook : hook.prototype = parameterPrototype type) (r : Register)
    (hregister : r.index.toNat =
      b.firstIncoming.index.toNat + (parameterOffset t.target isStatic index).toNat)
    (hopening : opening = [.invokeStatic hook ((ValueKind.ofType type).registers r),
      .moveResult (ValueKind.ofType type) r])
    (hbefore : ∀ i, before i = [])
    (hcalls : b.ins.toNat ≤ b.registers.toNat → argumentRegisters t.target isStatic < 65536 →
      ∀ i ∈ opening, SymbolicInstruction.PassesWell b.registers.toNat i)
  /-- Without a result, a hook on exit is passed nothing. -/
  | exitVoid (haction : t.action = .exit) (hresult : t.target.prototype.result = .void)
    (hhook : hook.prototype = exitPrototype t.target) (hopening : opening = [])
    (hreturn : before .returnVoid = [.invokeStatic hook []])
    (hkeep : ∀ i, i ≠ .returnVoid → before i = [])
    (hcalls : ∀ i ∈ before .returnVoid, SymbolicInstruction.PassesWell b.registers.toNat i)
  /-- With a result, it is passed the registers that the return names, and its result is moved
  there; that is right exactly if the return has the width of the result and its registers
  exist. -/
  | exitValue (haction : t.action = .exit) (type : ValueType)
    (hresult : t.target.prototype.result = .value type)
    (hhook : hook.prototype = exitPrototype t.target) (hopening : opening = [])
    (hreturn : ∀ kind r, before (.returnValue kind r) =
      [.invokeStatic hook (kind.registers r), .moveResult kind r])
    (hkeep : ∀ i, (∀ kind r, i ≠ .returnValue kind r) → before i = [])
    (hcalls : ∀ kind r,
      (∀ i ∈ before (.returnValue kind r),
        SymbolicInstruction.PassesWell b.registers.toNat i) ↔
      kind.width = type.width ∧ ∀ x ∈ kind.registers r, x.index.toNat < b.registers.toNat)

theorem hookCalls_exit (haction : t.action = .exit)
    (hhook : hook.prototype = exitPrototype t.target) (isStatic : Bool) (b : Body) :
    t.HookCalls isStatic b hook [] (exitCalls hook t.target.prototype.result) := by
  cases hresult : t.target.prototype.result with
  | void =>
    rw [exitPrototype, hresult] at hhook
    refine .exitVoid haction hresult (by rw [hhook, exitPrototype, hresult]) rfl rfl
      (fun i hi => ?_) fun i hi => ?_
    · cases i
      case returnVoid => exact absurd rfl hi
      all_goals rfl
    · rw [List.mem_singleton.mp hi]
      exact ⟨by rw [hhook]; rfl, fun r hr => absurd hr List.not_mem_nil⟩
  | value type =>
    rw [exitPrototype, hresult] at hhook
    refine .exitValue haction type hresult (by rw [hhook, exitPrototype, hresult]) rfl
      (fun _ _ => rfl) (fun i hi => ?_) fun kind r => ?_
    · cases i
      case returnValue kind r => exact absurd rfl (hi kind r)
      all_goals rfl
    · have hwidth : ValueType.totalWidth hook.prototype.parameters = type.width := by
        rw [hhook]
        rfl
      rw [← hwidth]
      exact SymbolicInstruction.passesWell_passed_iff

/-- A body that was transformed by a hook on entry, of a parameter or on exit is the old one with
calls of the hook in front or before its returns. -/
theorem hookCalls_of_transformBody (h : t.transformBody isStatic b = .ok b')
    (hdetour : ∀ kind callee, t.action ≠ .detour kind callee) :
    ∃ hook opening before, hook.owner = t.hook.owner ∧ hook.name = t.hook.name ∧
      b'.registers = b.registers ∧ b'.lines = linesWith opening before b.lines ∧
      t.HookCalls isStatic b hook opening before := by
  obtain ⟨s, hook, hplanned, -, rfl⟩ := exists_planned_of_transformBody h
  obtain ⟨howner, hname⟩ := hplanned.hook_eq
  have hregisters := b.registers.toNat_lt
  have hfits := hplanned.fits_opening
  have hlines : (s.apply b).lines = s.weave b.lines := rfl
  -- what is put in front keeps every instruction as it is; what is put before a return, too
  cases hplanned with
  | entry thisAsObject haction hincoming hook hhook =>
    refine ⟨hook, _, fun _ => [], howner, hname, rfl,
      hlines.trans (Splice.weave_eq_linesWith (fun _ => rfl) b.lines),
      .entry thisAsObject haction (by rw [hhook]; rfl) rfl (fun _ => rfl)
        fun hins hcount i hi => ?_⟩
    have hall := ins_eq_of_incomingMatches hcount hincoming
    rw [List.mem_singleton.mp hi]
    exact SymbolicInstruction.passesWell_of_fits_call (hfits hins hall _ List.mem_cons_self)
  | parameter index haction type htype hincoming register hregister hlt hook hhook =>
    refine ⟨hook, _, fun _ => [], howner, hname, rfl,
      hlines.trans (Splice.weave_eq_linesWith (fun _ => rfl) b.lines),
      .parameter index haction type htype (by rw [hhook]; rfl) _
        ((toNat_uint16_ofNat (by omega)).trans hregister) rfl (fun _ => rfl)
        fun hins hcount i hi => ?_⟩
    have hi' := hfits hins (ins_eq_of_incomingMatches hcount hincoming) i hi
    rcases List.mem_pair.mp hi with rfl | rfl
    · exact SymbolicInstruction.passesWell_of_fits_call hi'
    · exact SymbolicInstruction.passesWell_of_fits_result (by omega) hi'
  | exit haction hook hhook =>
    exact ⟨hook, [], _, howner, hname, rfl,
      hlines.trans (Splice.weave_eq_linesWith (blockOf_exitSplice hook _ b) b.lines),
      hookCalls_exit haction (by rw [hhook]; rfl) isStatic b⟩
  | detour kind callee haction => exact absurd haction (hdetour kind callee)

theorem hookCalls_of_transformBody_countdown :
    leave.transformBody true countdown = .ok countdownWithHook ∧
      ∃ hook opening before, hook.owner = ⟨"Hooks"⟩ ∧ hook.name = "leave" ∧
        countdownWithHook.registers = 1 ∧
        countdownWithHook.lines = linesWith opening before countdown.lines ∧
        leave.HookCalls true countdown hook opening before := by
  have hbody : leave.transformBody true countdown = .ok countdownWithHook := by
    decide +kernel
  exact ⟨hbody, hookCalls_of_transformBody hbody (by simp [leave])⟩

/-! ## A return that the prototype does not have -/

/-- Everything that is new in the second body passes well. -/
def InsertsWell (b b' : Body) : Prop :=
  ∀ i ∈ instructionsOf b'.lines, i ∉ instructionsOf b.lines →
    SymbolicInstruction.PassesWell b'.registers.toNat i

/-- The method returns a pair of registers, of which it has one, and its result takes one. -/
def pairReturn : Body := ⟨1, 1, 0, [.instruction (.returnValue .wide ⟨0⟩)]⟩

/-- The class of the method. -/
def pairReturnClass : ClassDef := ⟨⟨"A"⟩, ⟨1⟩, none, [⟨leave.target, ⟨9⟩, some pairReturn⟩]⟩

theorem exists_decode_pairReturnClass :
    ∃ bytes, DexFile.decode bytes ⟨"A"⟩ = .ok ⟨[pairReturnClass]⟩ := by
  obtain ⟨bytes, hbytes⟩ := exists_ok_of_isOk
    (by decide +kernel : (DexFile.image ⟨[pairReturnClass]⟩).isOk = true)
  have hcanonical : IsCanonical pairReturn.lines :=
    ⟨⟨[⟨none, .returnValue .wide ⟨0⟩⟩], rfl⟩, rfl, by decide, by simp [pairReturn, labelsOf,
      instructionsOf, Line.label?, Line.instruction?, Instruction.target?]⟩
  have hbodies : DexFile.bodies ⟨[pairReturnClass]⟩ = [pairReturn] := by decide +kernel
  have hread : DexFile.decode bytes pairReturnClass.name = .ok ⟨[pairReturnClass]⟩ :=
    DexFile.decode_image hbytes (by decide +kernel)
      (hbodies ▸ List.forall_mem_singleton.mpr hcanonical)
  exact ⟨bytes, hread⟩

/-- Not everything that hooks insert into what can be read passes well, also where the registers
of the arguments can be counted and no pair of registers begins with the last one. -/
theorem not_insertsWell_of_decode :
    ¬ ∀ (bytes : Bytes) (c : ClassName) (d : DexFile) (t : Transform) (m : Method) (b b' : Body),
      DexFile.decode bytes c = .ok d → d.method? t.target = some m → m.body = some b →
      (∀ kind callee, t.action ≠ .detour kind callee) →
      argumentRegisters t.target m.isStatic < 65536 →
      (∀ i ∈ instructionsOf b.lines, ∀ v ∈ i.values, v.2.index.toNat + v.1.width ≤ 65536) →
      t.transformBody m.isStatic b = .ok b' → InsertsWell b b' := by
  intro hclaim
  obtain ⟨bytes, hbytes⟩ := exists_decode_pairReturnClass
  have hwell := hclaim bytes ⟨"A"⟩ _ leave ⟨leave.target, ⟨9⟩, some pairReturn⟩ pairReturn
    ⟨1, 1, 2, [.instruction (.invokeStatic
        ⟨⟨"Hooks"⟩, "leave", ⟨[.primitive .int], .value (.primitive .int)⟩⟩ [⟨0⟩, ⟨1⟩]),
      .instruction (.moveResult .wide ⟨0⟩), .instruction (.returnValue .wide ⟨0⟩)]⟩
    hbytes (by decide +kernel) rfl (by simp [leave]) (by decide) (by decide) (by decide +kernel)
  obtain ⟨hlen, -⟩ := hwell (.invokeStatic _ _) List.mem_cons_self (by decide)
  exact absurd hlen (by decide)

end Transform

end DexWeave
