/-
  DexWeave/Proofs/ParameterRegisters.lean --- where parameters are on entry.

  WHAT THIS FILE IS FOR.  Hooks on entry are passed all registers that hold arguments, as a
  range that ends with the last register; the hook of a parameter is passed the registers
  that its place in the prototype leads to.  `ParametersTile` says that both are one layout:
  the receiver and the parameters, one after the other, are the range, so the hook of one
  parameter changes no other one.

  SIXTEEN BITS.  Registers are counted in sixteen bits, and sums of widths could have more.
  They do not where the number of the arguments on entry is that of the prototype: `addWord?`
  is a sum that fails if it has more, and none does.
-/
import DexWeave.Proofs.LocalChange
import Mathlib.Data.List.Nodup

set_option autoImplicit false

namespace DexWeave

/-! ## Sums of sixteen bits -/

/-- A number as one of sixteen bits, if it has no more. -/
def word? (n : Nat) : Option UInt16 := if n < 65536 then some (UInt16.ofNat n) else none

/-- The sum of two numbers, if it has no more than sixteen bits. -/
def addWord? (a b : UInt16) : Option UInt16 := word? (a.toNat + b.toNat)

/-- The sum of the widths of types. -/
def sumWidths? (ts : List ValueType) : Option UInt16 :=
  ts.foldlM (fun sum t => addWord? sum (UInt16.ofNat t.width)) 0

theorem word?_of_lt {n : Nat} (h : n < 65536) : word? n = some (UInt16.ofNat n) := if_pos h

theorem word?_toNat (a : UInt16) : word? a.toNat = some a := by
  rw [word?_of_lt a.toNat_lt, UInt16.ofNat_toNat]

theorem word?_eq_some_iff {n : Nat} {a : UInt16} : word? n = some a ↔ n = a.toNat := by
  constructor
  · intro h
    by_cases hn : n < 65536
    · rw [word?_of_lt hn] at h
      rw [← Option.some.inj h, toNat_uint16_ofNat (Nat.le_of_lt_succ hn)]
    · rw [word?, if_neg hn] at h
      cases h
  · rintro rfl
    exact word?_toNat a

theorem addWord?_ofNat (a : UInt16) {n : Nat} (hn : n < 65536) :
    addWord? a (UInt16.ofNat n) = word? (a.toNat + n) := by
  rw [addWord?, toNat_uint16_ofNat (Nat.le_of_lt_succ hn)]

theorem word?_bind_addWord? (m : Nat) {n : Nat} (hn : n < 65536) :
    (word? m).bind (addWord? · (UInt16.ofNat n)) = word? (m + n) := by
  by_cases hm : m < 65536
  · rw [word?_of_lt hm, Option.bind_some, addWord?_ofNat _ hn,
      toNat_uint16_ofNat (Nat.le_of_lt_succ hm)]
  · rw [word?, if_neg hm, word?, if_neg (by omega), Option.bind_none]

/-- If the sum of all widths has sixteen bits, so does every sum on the way. -/
theorem sumWidths?_eq (ts : List ValueType) : sumWidths? ts = word? (ValueType.totalWidth ts) := by
  have hfrom : ∀ m, (word? m).bind
      (ts.foldlM (fun sum t => addWord? sum (UInt16.ofNat t.width))) =
        word? (m + ValueType.totalWidth ts) := by
    induction ts with
    | nil => exact fun m => Option.bind_fun_some (word? m)
    | cons t ts ih =>
      intro m
      have hwidth : t.width ≤ 2 := ValueKind.width_ofType t ▸ (ValueKind.ofType t).width_le
      have hfirst := word?_bind_addWord? m (by omega : t.width < 65536)
      rw [ValueType.totalWidth, ← Nat.add_assoc, ← ih, ← hfirst, Option.bind_assoc]
      rfl
  have hzero := hfrom 0
  rwa [word?_of_lt (by decide), Option.bind_some, Nat.zero_add] at hzero

/-! ## Ranges of registers -/

/-- Registers one after the other. -/
def registersFrom (first count : Nat) : List Register :=
  (List.range' first count).map fun n => ⟨UInt16.ofNat n⟩

theorem registersFrom_append (first m n : Nat) :
    registersFrom first m ++ registersFrom (first + m) n = registersFrom first (m + n) := by
  rw [registersFrom, registersFrom, ← List.map_append, List.range'_append_1, registersFrom]

theorem nodup_registersFrom {first count : Nat} (h : first + count ≤ 65536) :
    (registersFrom first count).Nodup := by
  refine List.Nodup.map_on (fun m hm n hn heq => ?_) List.nodup_range'
  obtain ⟨-, hm⟩ := List.mem_range'_1.mp hm
  obtain ⟨-, hn⟩ := List.mem_range'_1.mp hn
  have hwords := congrArg (fun r : Register => r.index.toNat) heq
  rwa [toNat_uint16_ofNat (by omega), toNat_uint16_ofNat (by omega)] at hwords

namespace ValueKind

theorem registers_ofType (t : ValueType) (n : Nat) :
    (ofType t).registers ⟨UInt16.ofNat n⟩ = registersFrom n t.width := by
  rw [ofType, ValueType.width]
  split
  · rw [registers, Register.next, ← UInt16.ofNat_one, ← UInt16.ofNat_add]
    rfl
  · split <;> rfl

end ValueKind

/-- The registers of values of some types, each behind those before it, are a range. -/
theorem flatMap_registersFrom (ts : List ValueType) (first : Nat) :
    (List.range ts.length).flatMap (fun index => registersFrom
        (first + ValueType.totalWidth (ts.take index)) ((ts[index]?.map ValueType.width).getD 0)) =
      registersFrom first (ValueType.totalWidth ts) := by
  induction ts generalizing first with
  | nil => rfl
  | cons t ts ih =>
    rw [List.length_cons, List.range_succ_eq_map, List.flatMap_cons, List.flatMap_map,
      ValueType.totalWidth, ← registersFrom_append, ← ih]
    simp only [List.take_succ_cons, List.getElem?_cons_succ, ValueType.totalWidth,
      Nat.add_assoc]
    rfl

/-! ## Registers that hold arguments -/

namespace Body

variable {b : Body}

/-- The register of the receiver, if there is one. -/
def receiver (b : Body) (isStatic : Bool) : List Register :=
  if isStatic then [] else [b.firstIncoming]

/-- The registers that the first instruction passes, if it is a call. -/
def firstArguments (b : Body) : List Register :=
  ((instructionsOf b.lines).head?.map Instruction.arguments).getD []

theorem incoming_eq (h : b.ins.toNat ≤ b.registers.toNat) :
    b.incoming = registersFrom b.firstIncoming.index.toNat b.ins.toNat := by
  have hcount : b.registers.toNat - (b.registers.toNat - b.ins.toNat) = b.ins.toNat := by omega
  rw [incoming, toNat_firstIncoming, hcount, registersFrom]

theorem receiver_eq (b : Body) (isStatic : Bool) :
    b.receiver isStatic = registersFrom b.firstIncoming.index.toNat
      (Transform.receiverRegisters isStatic) := by
  cases isStatic with
  | true => rfl
  | false =>
    have hfirst : UInt16.ofNat b.firstIncoming.index.toNat = b.firstIncoming.index :=
      UInt16.ofNat_toNat
    rw [receiver, if_neg Bool.false_ne_true, registersFrom, Transform.receiverRegisters,
      if_neg Bool.false_ne_true, List.range'_one, List.map_singleton, hfirst]

end Body

namespace Transform

/-- The registers that the first instruction passes after the transform; none if it is refused. -/
def passedOnEntry (t : Transform) (isStatic : Bool) (b : Body) : List Register :=
  match t.transformBody isStatic b with
  | .ok b' => b'.firstArguments
  | .error _ => []

/-- The registers of the arguments that a prototype asks for, counted in sixteen bits. -/
def checkedIncoming? (target : MethodRef) (isStatic : Bool) : Option UInt16 :=
  (sumWidths? target.prototype.parameters).bind
    (addWord? · (UInt16.ofNat (receiverRegisters isStatic)))

/-- The registers of a parameter, counted in sixteen bits. -/
def checkedRegisters? (target : MethodRef) (isStatic : Bool) (b : Body) (index : Nat) :
    Option (List Register) := do
  let type ← target.prototype.parameters[index]?
  let before ← sumWidths? (target.prototype.parameters.take index)
  let offset ← addWord? before (UInt16.ofNat (receiverRegisters isStatic))
  let first ← addWord? b.firstIncoming.index offset
  if type.isWide then
    let second ← addWord? first 1
    return [⟨first⟩, ⟨second⟩]
  return [⟨first⟩]

variable {target : MethodRef} {isStatic : Bool} {b : Body} {hook : HookRef} {index : Nat}
  {type : ValueType}

theorem lines_parameterSplice (hook : MethodRef) (kind : ValueKind) (r : Register) (b : Body) :
    ((parameterSplice hook kind r).apply b).lines =
      .instruction (.invokeStatic hook (kind.registers r)) :: .instruction (.moveResult kind r) ::
        b.lines := by
  have hlines : b.lines.flatMap (parameterSplice hook kind r).weaveLine = b.lines :=
    Splice.flatMap_weaveLine_eq_self fun _ _ => rfl
  rw [Splice.apply, Body.reserveOuts, Splice.weave, hlines]
  rfl

theorem receiverRegisters_le (isStatic : Bool) : receiverRegisters isStatic ≤ 1 := by
  cases isStatic <;> decide

theorem checkedIncoming?_eq (target : MethodRef) (isStatic : Bool) :
    checkedIncoming? target isStatic = word? (argumentRegisters target isStatic) := by
  have hreceiver := receiverRegisters_le isStatic
  rw [checkedIncoming?, sumWidths?_eq, word?_bind_addWord? _ (by omega)]
  rfl

/-- The arguments on entry are those of the prototype exactly if their number, counted so, is. -/
theorem checkedIncoming?_eq_some_iff : checkedIncoming? target isStatic = some b.ins ↔
    b.ins.toNat = argumentRegisters target isStatic := by
  rw [checkedIncoming?_eq, word?_eq_some_iff, eq_comm]

section Matching

variable (hall : b.ins.toNat = argumentRegisters target isStatic)

include hall

/-- The registers before a parameter can be counted, and it ends where the arguments do, or
before. -/
theorem toNat_parameterOffset (htype : target.prototype.parameters[index]? = some type) :
    (parameterOffset target isStatic index).toNat =
        ValueType.totalWidth (target.prototype.parameters.take index) +
          receiverRegisters isStatic ∧
      (parameterOffset target isStatic index).toNat + type.width ≤ b.ins.toNat := by
  have hwidths := ValueType.totalWidth_take_add_width_le htype
  have hins := b.ins.toNat_lt
  rw [argumentRegisters] at hall
  rw [parameterOffset_eq, toNat_uint16_ofNat (by omega)]
  exact ⟨rfl, by omega⟩

/-- No parameter is behind the last register that can be named. -/
theorem firstIncoming_add_width_le (htype : target.prototype.parameters[index]? = some type) :
    b.firstIncoming.index.toNat + (parameterOffset target isStatic index).toNat + type.width ≤
      65535 := by
  obtain ⟨-, hoffset⟩ := toNat_parameterOffset hall htype
  have hregisters := b.registers.toNat_lt
  have hins := b.ins.toNat_lt
  rw [Body.toNat_firstIncoming]
  omega

theorem transformBody_entry (thisAsObject : Bool) (hook : HookRef) :
    transformBody ⟨target, .entry thisAsObject, hook⟩ isStatic b =
      .ok ((entrySplice (hook.withPrototype (entryPrototype target thisAsObject isStatic)) b).apply
        b) := by
  have hplan : plan ⟨target, .entry thisAsObject, hook⟩ isStatic b =
      .ok (entrySplice (hook.withPrototype (entryPrototype target thisAsObject isStatic)) b) :=
    if_pos (incomingMatches_of_ins_eq hall)
  rw [transformBody, hplan]
  rfl

theorem transformBody_parameter (htype : target.prototype.parameters[index]? = some type)
    (hook : HookRef) :
    transformBody ⟨target, .parameter index, hook⟩ isStatic b =
      .ok ((parameterSplice (hook.withPrototype (parameterPrototype type)) (ValueKind.ofType type)
        ⟨UInt16.ofNat (b.firstIncoming.index.toNat +
          (parameterOffset target isStatic index).toNat)⟩).apply b) := by
  have hle := firstIncoming_add_width_le hall htype
  have hlt : b.firstIncoming.index.toNat + (parameterOffset target isStatic index).toNat <
      65536 := by omega
  rw [transformBody, plan]
  simp only [htype, incomingMatches_of_ins_eq hall, if_true, if_pos hlt]
  rfl

theorem passedOnEntry_entry (thisAsObject : Bool) (hook : HookRef) :
    passedOnEntry ⟨target, .entry thisAsObject, hook⟩ isStatic b = b.incoming := by
  rw [passedOnEntry, transformBody_entry hall]
  rfl

theorem passedOnEntry_parameter (htype : target.prototype.parameters[index]? = some type)
    (hook : HookRef) :
    passedOnEntry ⟨target, .parameter index, hook⟩ isStatic b =
      registersFrom (b.firstIncoming.index.toNat +
        (parameterOffset target isStatic index).toNat) type.width := by
  rw [passedOnEntry, transformBody_parameter hall htype, ← ValueKind.registers_ofType]
  rfl

/-- The registers of a parameter, counted in sixteen bits, are those that its hook is passed. -/
theorem checkedRegisters?_eq (htype : target.prototype.parameters[index]? = some type)
    (hook : HookRef) :
    checkedRegisters? target isStatic b index =
      some (passedOnEntry ⟨target, .parameter index, hook⟩ isStatic b) := by
  have hle := firstIncoming_add_width_le hall htype
  have hreceiver := receiverRegisters_le isStatic
  have hoffset : (sumWidths? (target.prototype.parameters.take index)).bind
      (addWord? · (UInt16.ofNat (receiverRegisters isStatic))) =
        some (parameterOffset target isStatic index) := by
    obtain ⟨hexact, -⟩ := toNat_parameterOffset hall htype
    rw [sumWidths?_eq, word?_bind_addWord? _ (by omega), ← hexact, word?_toNat]
  rw [passedOnEntry_parameter hall htype, checkedRegisters?, htype]
  simp only [Option.bind_eq_bind, Option.bind_some]
  rw [← Option.bind_assoc, hoffset, Option.bind_some, addWord?, word?_of_lt (by omega),
    Option.bind_some]
  generalize b.firstIncoming.index.toNat + (parameterOffset target isStatic index).toNat = first
    at hle ⊢
  rw [ValueType.width] at hle ⊢
  split
  · rename_i hwide
    rw [if_pos hwide] at hle
    have hsecond : addWord? (UInt16.ofNat first) 1 = some (UInt16.ofNat (first + 1)) := by
      have hsum := addWord?_ofNat (UInt16.ofNat first) (by decide : 1 < 65536)
      rwa [toNat_uint16_ofNat (by omega), word?_of_lt (by omega)] at hsum
    rw [hsecond, Option.bind_some]
    rfl
  · rfl

/-- The receiver and the parameters, one after the other, are all that holds arguments. -/
theorem receiver_append_passedOnEntry (hins : b.ins.toNat ≤ b.registers.toNat) (hook : HookRef) :
    b.receiver isStatic ++ (List.range target.prototype.parameters.length).flatMap (fun index =>
      passedOnEntry ⟨target, .parameter index, hook⟩ isStatic b) = b.incoming := by
  have hparameters : (List.range target.prototype.parameters.length).flatMap (fun index =>
        passedOnEntry ⟨target, .parameter index, hook⟩ isStatic b) =
      registersFrom (b.firstIncoming.index.toNat + receiverRegisters isStatic)
        (ValueType.totalWidth target.prototype.parameters) := by
    rw [← flatMap_registersFrom]
    refine List.flatMap_congr fun index hindex => ?_
    have htype := List.getElem?_eq_getElem (List.mem_range.mp hindex)
    obtain ⟨hexact, -⟩ := toNat_parameterOffset hall htype
    rw [passedOnEntry_parameter hall htype, htype, Option.map_some, Option.getD_some, hexact,
      Nat.add_assoc, Nat.add_comm (receiverRegisters isStatic)]
  rw [hparameters, Body.receiver_eq, registersFrom_append, Body.incoming_eq hins, hall,
    argumentRegisters, Nat.add_comm (receiverRegisters isStatic)]

theorem plan_ne_parameterRegister (action : HookAction) (hook : HookRef) :
    plan ⟨target, action, hook⟩ isStatic b ≠ .error .parameterRegister := by
  intro h
  cases action with
  | entry thisAsObject =>
    have hbody := transformBody_entry hall thisAsObject hook
    rw [transformBody, h] at hbody
    cases hbody
  | parameter index =>
    cases htype : target.prototype.parameters[index]? with
    | none => simp [plan, htype] at h
    | some type =>
      have hbody := transformBody_parameter hall htype hook
      rw [transformBody, h] at hbody
      cases hbody
  | exit | detour => cases h

/-- No transform is refused because there is no register for a parameter. -/
theorem transformBody_ne_parameterRegister (action : HookAction) (hook : HookRef) :
    transformBody ⟨target, action, hook⟩ isStatic b ≠ .error .parameterRegister := by
  intro h
  rw [transformBody] at h
  cases hplan : plan ⟨target, action, hook⟩ isStatic b with
  | ok s =>
    rw [hplan, Fallible.ok_bind] at h
    split at h <;> cases h
  | error r =>
    rw [hplan] at h
    obtain rfl := Except.error.inj h
    exact plan_ne_parameterRegister hall action hook hplan

end Matching

/-! ## One layout -/

/-- The registers that hooks of parameters are passed, against those that a hook on entry is
passed. -/
structure ParametersTile (target : MethodRef) (isStatic : Bool) (b : Body) (hook : HookRef) :
    Prop where
  /-- The receiver and the parameters, one after the other, are what a hook on entry is passed:
  all registers that hold arguments. -/
  tile : ∀ thisAsObject, b.receiver isStatic ++
      (List.range target.prototype.parameters.length).flatMap (fun index =>
        passedOnEntry ⟨target, .parameter index, hook⟩ isStatic b) =
      passedOnEntry ⟨target, .entry thisAsObject, hook⟩ isStatic b ∧
    passedOnEntry ⟨target, .entry thisAsObject, hook⟩ isStatic b = b.incoming
  /-- The hook of a parameter is passed as many registers as its type takes, and what is moved
  afterwards is its result to these registers. -/
  rewrites : ∀ index type, target.prototype.parameters[index]? = some type → ∃ b' r,
    transformBody ⟨target, .parameter index, hook⟩ isStatic b = .ok b' ∧
    b'.lines = .instruction (.invokeStatic (hook.withPrototype (parameterPrototype type))
        (passedOnEntry ⟨target, .parameter index, hook⟩ isStatic b)) ::
      .instruction (.moveResult (ValueKind.ofType type) r) :: b.lines ∧
    (ValueKind.ofType type).registers r =
      passedOnEntry ⟨target, .parameter index, hook⟩ isStatic b ∧
    ((ValueKind.ofType type).registers r).length = type.width
  /-- No register is of two parameters, or of a parameter and the receiver. -/
  apart : (List.range target.prototype.parameters.length).Pairwise (fun index index' =>
      (passedOnEntry ⟨target, .parameter index, hook⟩ isStatic b).Disjoint
        (passedOnEntry ⟨target, .parameter index', hook⟩ isStatic b)) ∧
    ∀ index < target.prototype.parameters.length, (b.receiver isStatic).Disjoint
      (passedOnEntry ⟨target, .parameter index, hook⟩ isStatic b)
  /-- No sum has more than sixteen bits. -/
  counted : checkedIncoming? target isStatic = some b.ins ∧
    ∀ index < target.prototype.parameters.length, checkedRegisters? target isStatic b index =
      some (passedOnEntry ⟨target, .parameter index, hook⟩ isStatic b)
  /-- That there is no register for a parameter is not why a transform is refused. -/
  inRange : ∀ t : Transform, t.target = target →
    t.transformBody isStatic b ≠ .error .parameterRegister

/-- Where the arguments on entry are those of the prototype, the registers of the receiver and of
the parameters are laid out one after the other. -/
theorem parametersTile_of_incomingMatches {target : MethodRef} {isStatic : Bool} {b : Body}
    (hins : b.ins.toNat ≤ b.registers.toNat)
    (hall : b.ins.toNat = argumentRegisters target isStatic) (hook : HookRef) :
    ParametersTile target isStatic b hook := by
  have htile := receiver_append_passedOnEntry hall hins hook
  have hnodup : b.incoming.Nodup := by
    have hregisters := b.registers.toNat_lt
    rw [Body.incoming_eq hins, Body.toNat_firstIncoming]
    exact nodup_registersFrom (by omega)
  rw [← htile, List.nodup_append', List.nodup_flatMap] at hnodup
  obtain ⟨-, ⟨-, happart⟩, hreceiver⟩ := hnodup
  refine ⟨fun thisAsObject => ?_, fun index type htype => ?_, ⟨happart, fun index hindex => ?_⟩,
    ⟨checkedIncoming?_eq_some_iff.mpr hall, fun index hindex => ?_⟩, fun t ht => ?_⟩
  · rw [passedOnEntry_entry hall]
    exact ⟨htile, rfl⟩
  · have hpassed := (passedOnEntry_parameter hall htype hook).trans
      (ValueKind.registers_ofType type _).symm
    rw [hpassed]
    exact ⟨_, _, transformBody_parameter hall htype hook, lines_parameterSplice _ _ _ b, rfl,
      ValueKind.length_registers_ofType type _⟩
  · intro r hr hparameter
    exact hreceiver hr (List.mem_flatMap.mpr ⟨index, List.mem_range.mpr hindex, hparameter⟩)
  · exact checkedRegisters?_eq hall (List.getElem?_eq_getElem hindex) hook
  · subst ht
    exact transformBody_ne_parameterRegister hall t.action t.hook

/-- A body of `wait` with its arguments in the last four of six registers. -/
def waitBody : Body :=
  ⟨6, 4, 1, [.instruction (.invoke .virtual clock [⟨5⟩]), .instruction (.moveResult .wide ⟨0⟩),
    .instruction (.returnValue .wide ⟨3⟩)]⟩

theorem parametersTile_of_incomingMatches_wait :
    waitBody.ins.toNat ≤ waitBody.registers.toNat ∧
      waitBody.ins.toNat = argumentRegisters wait false ∧
      ParametersTile wait false waitBody ⟨⟨"Watch"⟩, "limit"⟩ := by
  have hins : waitBody.ins.toNat ≤ waitBody.registers.toNat := by decide
  have hall : waitBody.ins.toNat = argumentRegisters wait false := by decide
  exact ⟨hins, hall, parametersTile_of_incomingMatches hins hall _⟩

end Transform

end DexWeave
