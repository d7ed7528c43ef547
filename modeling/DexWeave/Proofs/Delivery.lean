/-
  DexWeave/Proofs/Delivery.lean --- machines that deliver loads.

  WHAT THIS FILE IS FOR.  When a class is loaded again, a machine hands loads to the hook and
  gives the loaded classes the bytes that the hook returned.  `Vm.Delivers` says so of a
  machine.  Which loads come is left open: of any classes, as often as the machine likes, and
  ending as it likes.

  PLANS.  What a machine does for a class is its plan, a conversation from which bytes and
  states are left out.  The next load, and the memory that comes with it, may depend on what
  the hook returned so far, since a machine may refuse the bytes it was given.  They depend
  on nothing else: a plan is the same in every state, so it does not tell what happened to
  other classes before.
-/
import DexWeave.Instrument.Bridge
import DexWeave.Vm.Scripted

set_option autoImplicit false

namespace DexWeave

/-! ## Plans -/

/-- The loads that come when a class is loaded again, and how they end. -/
inductive LoadPlan where
  /-- No load comes any more. -/
  | done (result : Except VmError Unit)
  /-- A class is loaded, with memory for new bytes; what follows may depend on the answer. -/
  | load (allocate : Allocator) (name : ClassName) (resume : Option Bytes → LoadPlan)

/-- The bytes of all classes after a load, with the answer of the hook. -/
def bytesAfter (bytes : ClassName → Option Bytes) (name : ClassName) (returned : Option Bytes) :
    ClassName → Option Bytes :=
  match returned with
  | none => bytes
  | some new => fun c => if c = name then some new else bytes c

theorem bytesAfter_own (bytes : ClassName → Option Bytes) (name : ClassName)
    (returned : Option Bytes) :
    bytesAfter bytes name returned name = returned.or (bytes name) := by
  cases returned with
  | none => rfl
  | some new => exact if_pos rfl

theorem bytesAfter_of_ne (bytes : ClassName → Option Bytes) {name c : ClassName}
    (h : c ≠ name) (returned : Option Bytes) : bytesAfter bytes name returned c = bytes c := by
  cases returned with
  | none => rfl
  | some new => exact if_neg h

section Machines

variable {σ : Type} {view : σ → ClassName → Option Bytes} {listening : σ → Prop}

/-- The conversation keeps to the plan: a load hands over the bytes that the class has, what the
hook returns becomes its bytes, and in the end the classes have the bytes they were given. -/
inductive Loading.Follows (view : σ → ClassName → Option Bytes) (listening : σ → Prop) :
    LoadPlan → (ClassName → Option Bytes) → Loading σ → Prop where
  | done (result : Except VmError Unit) (state : σ) (h : listening state) :
    Follows view listening (.done result) (view state) (.done result state)
  | load (allocate : Allocator) (name : ClassName) (resume : Option Bytes → LoadPlan)
    (bytes : ClassName → Option Bytes) (answered : Option Bytes → Loading σ)
    (h : ∀ returned,
      Follows view listening (resume returned) (bytesAfter bytes name returned)
        (answered returned)) :
    Follows view listening (.load allocate name resume) bytes
      (.load allocate ⟨name, (bytes name).getD []⟩ answered)

/-- If the plan begins with a load, so does the conversation. -/
theorem Loading.Follows.exists_of_load {allocate : Allocator} {name : ClassName}
    {resume : Option Bytes → LoadPlan} {bytes : ClassName → Option Bytes} {l : Loading σ}
    (h : l.Follows view listening (.load allocate name resume) bytes) :
    ∃ answered, l = .load allocate ⟨name, (bytes name).getD []⟩ answered := by
  cases h with
  | load allocate name resume bytes answered h => exact ⟨answered, rfl⟩

/-- A machine whose classes have the bytes seen by `view` delivers the loads of the plans while it
is listening, and changes no bytes when the notification is switched.  There is one plan for a
class: while the machine is listening, its state makes no difference to the loads that come, to
the memory that comes with them, or to how they end. -/
structure Vm.Delivers (vm : Vm σ) (view : σ → ClassName → Option Bytes)
    (plan : ClassName → LoadPlan) (listening : σ → Prop) : Prop where
  keeps : ∀ state enabled, view (vm.setLoadHook state enabled).2 = view state
  loads : ∀ state c, listening state →
    Loading.Follows view listening (plan c) (view state) (vm.retransform state c)

/-! ## One class -/

/-- What a plan comes to for the class of a bridge: how it ends, the bytes of the class, and what
the bridge saw.  Loads of other classes pass through. -/
def LoadPlan.own (b : Bridge) :
    LoadPlan → Option Bytes → BridgeOutcome → Except VmError Unit × Option Bytes × BridgeOutcome
  | .done result, bytes, seen => (result, bytes, seen)
  | .load allocate name resume, bytes, seen =>
    if name = b.name then
      let (returned, seen) := b.onLoad allocate seen ⟨name, bytes.getD []⟩
      (resume returned).own b (returned.or bytes) seen
    else (resume none).own b bytes seen

/-- The run ends for the class of the bridge as `own` says, and other classes keep their bytes. -/
structure Bridge.RunsAs (b : Bridge) (view : σ → ClassName → Option Bytes)
    (listening : σ → Prop) (bytes : ClassName → Option Bytes)
    (own : Except VmError Unit × Option Bytes × BridgeOutcome)
    (run : (Except VmError Unit × σ) × BridgeOutcome) : Prop where
  result : run.1.1 = own.1
  bytes_eq : view run.1.2 b.name = own.2.1
  seen : run.2 = own.2.2
  listens : listening run.1.2
  others : ∀ c, c ≠ b.name → view run.1.2 c = bytes c

theorem Bridge.onLoad_of_ne {b : Bridge} (allocate : Allocator) (seen : BridgeOutcome)
    {event : ClassLoad} (h : event.name ≠ b.name) : b.onLoad allocate seen event = (none, seen) :=
  if_neg h

/-- A bridge changes the bytes of its own class only, and what it does with them depends on
nothing but them and the plan. -/
theorem Loading.Follows.runsAs {plan : LoadPlan} {bytes : ClassName → Option Bytes}
    {l : Loading σ} (h : l.Follows view listening plan bytes) (b : Bridge)
    (seen : BridgeOutcome) :
    b.RunsAs view listening bytes (plan.own b (bytes b.name) seen) (l.run b.hook seen) := by
  induction h generalizing seen with
  | done result state h => exact ⟨rfl, rfl, rfl, h, fun _ _ => rfl⟩
  | load allocate name resume bytes answered h ih =>
    rw [run, LoadPlan.own, Bridge.hook]
    split
    · rename_i hname
      subst hname
      have hrest := ih (b.onLoad allocate seen ⟨b.name, (bytes b.name).getD []⟩).1
        (b.onLoad allocate seen ⟨b.name, (bytes b.name).getD []⟩).2
      rw [bytesAfter_own] at hrest
      exact { hrest with
        others := fun c hc => (hrest.others c hc).trans (bytesAfter_of_ne bytes hc _) }
    · rename_i hname
      rw [Bridge.onLoad_of_ne allocate seen hname]
      exact ih none seen

end Machines

/-! ## Scripts -/

/-- The plan of loads that do not depend on the answers. -/
def LoadPlan.ofEvents (allocate : Allocator) (result : Except VmError Unit) :
    List ClassName → LoadPlan
  | [] => .done result
  | name :: names => .load allocate name fun _ => ofEvents allocate result names

namespace ScriptedVm

/-- The plan of a class in a script. -/
def planOf (allocate : Allocator) (script : VmScript) (c : ClassName) : LoadPlan :=
  let entry := (script.retransform.lookup c).getD ⟨none, none, none⟩
  match entry.error with
  | some e => .done (.error e)
  | none => .ofEvents allocate (outcome entry.errorAfter) (entry.events.getD [c])

theorem follows_deliver {script : VmScript} (allocate : Allocator)
    (errorAfter : Option VmError) (names : List ClassName) (vm : ScriptedVm)
    (hscript : vm.script = script) (hhook : vm.hookEnabled = true) :
    (deliver allocate errorAfter names vm).Follows bytesOf?
      (fun vm => vm.script = script ∧ vm.hookEnabled = true)
      (.ofEvents allocate (outcome errorAfter) names) vm.bytesOf? := by
  induction names generalizing vm with
  | nil => exact .done _ vm ⟨hscript, hhook⟩
  | cons name names ih =>
    refine .load allocate name _ vm.bytesOf? _ fun returned => ?_
    cases returned with
    | none => exact ih vm hscript hhook
    | some new =>
      have hbytes : bytesAfter vm.bytesOf? name (some new) = (vm.store name new).bytesOf? :=
        funext fun c => (bytesOf?_store vm name c new).symm
      rw [hbytes]
      exact ih (vm.store name new) hscript hhook

/-- A scripted machine delivers the loads of its script while its notification is on. -/
theorem delivers (allocate : Allocator) (script : VmScript) :
    (machine allocate).Delivers bytesOf? (planOf allocate script)
      (fun vm => vm.script = script ∧ vm.hookEnabled = true) where
  keeps := by
    intro vm enabled
    simp only [machine]
    split <;> rfl
  loads := by
    rintro vm c ⟨rfl, hhook⟩
    simp only [machine, retransform, planOf]
    cases ((vm.script.retransform.lookup c).getD ⟨none, none, none⟩).error with
    | some e => exact .done _ vm ⟨rfl, hhook⟩
    | none =>
      simp only [hhook, if_true]
      exact follows_deliver allocate _ _ vm rfl hhook

end ScriptedVm

end DexWeave
