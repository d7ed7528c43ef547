/-
  DexWeave/Proofs/Isolation.lean --- classes of a batch do not affect each other.

  WHAT THIS FILE IS FOR.  A class that cannot be read, transformed or loaded again does not
  stop the others, and nothing else about it reaches them either.  What becomes of a class
  follows from its own transforms, its own bytes and what the machine does when it is loaded
  again; so it is the same in a batch of its transforms alone, and in any other batch that
  agrees on these.

  HOW.  Classes are loaded again one after the other, each through its own bridge.  A bridge
  passes loads of other classes through, so the bytes of a class are still the first ones when
  its turn comes, and stay as they are once it is over.

  MEMORY.  The memory that a machine has at hand is part of its plan for a class, so what
  becomes of a class depends on it.  Classes do not affect each other because the plan of one
  is not changed by the others: a machine that ran out of memory over one class would have
  another plan for the next.

  NO CACHE.  All of this is for batches that neither read nor write a cache.
-/
import DexWeave.Proofs.BatchProtocol
import DexWeave.Proofs.Delivery
import DexWeave.Proofs.Reencode

set_option autoImplicit false

namespace DexWeave

namespace Bridge

/-- What becomes of the class of a bridge that is loaded again by a plan. -/
def ownOutcome (b : Bridge) (plan : LoadPlan) (bytes : Option Bytes) : ClassOutcome :=
  Instrumenter.classOutcome (plan.own b bytes .notReached).1
    (plan.own b bytes .notReached).2.2

/-- The bytes of the class of a bridge after it was loaded again by a plan. -/
def ownBytes (b : Bridge) (plan : LoadPlan) (bytes : Option Bytes) : Option Bytes :=
  (plan.own b bytes .notReached).2.1

end Bridge

namespace Instrumenter

variable {σ φ : Type} {inst : Instrumenter φ} {vm : Vm σ} {view : σ → ClassName → Option Bytes}
  {plan : ClassName → LoadPlan} {listening : σ → Prop} {ts : List Transform} {state : σ}
  {store : φ}

/-! ## Loading classes again -/

/-- What one class comes to: its outcome and its bytes follow from its plan, and everything else
is as before. -/
structure RunsOne (view : σ → ClassName → Option Bytes) (plan : ClassName → LoadPlan)
    (listening : σ → Prop) (b : Bridge) (state : σ) (done : ClassOutcome × σ × φ) : Prop where
  outcome : done.1 = b.ownOutcome (plan b.name) (view state b.name)
  bytes : view done.2.1 b.name = b.ownBytes (plan b.name) (view state b.name)
  listens : listening done.2.1
  others : ∀ c, c ≠ b.name → view done.2.1 c = view state c

theorem retransformOne_of_inactive (hcache : inst.activeCache = none) (vm : Vm σ) (b : Bridge)
    (state : σ) (store : φ) :
    inst.retransformOne vm b state store =
      (classOutcome ((vm.retransform state b.name).run b.hook .notReached).1.1
          ((vm.retransform state b.name).run b.hook .notReached).2,
        ((vm.retransform state b.name).run b.hook .notReached).1.2, store) := by
  rw [retransformOne]
  simp only [stash, hcache]
  split <;> rfl

theorem runsOne_retransformOne (hvm : vm.Delivers view plan listening)
    (hcache : inst.activeCache = none) (b : Bridge) (hlistening : listening state) (store : φ) :
    RunsOne view plan listening b state (inst.retransformOne vm b state store) := by
  have hruns := (hvm.loads state b.name hlistening).runsAs b .notReached
  rw [retransformOne_of_inactive hcache]
  exact {
    outcome := by rw [hruns.result, hruns.seen, Bridge.ownOutcome]
    bytes := hruns.bytes_eq
    listens := hruns.listens
    others := hruns.others }

/-- What the classes of a batch come to: each of them what it comes to on its own. -/
structure RunsAll (view : σ → ClassName → Option Bytes) (plan : ClassName → LoadPlan)
    (bs : List Bridge) (state : σ) (done : List (ClassName × ClassOutcome) × σ × φ) :
    Prop where
  outcomes : ∀ b ∈ bs, done.1.lookup b.name =
    some (b.ownOutcome (plan b.name) (view state b.name))
  bytes : ∀ b ∈ bs, view done.2.1 b.name = b.ownBytes (plan b.name) (view state b.name)
  others : ∀ c, c ∉ bs.map Bridge.name → view done.2.1 c = view state c

theorem runsAll_retransformAll (hvm : vm.Delivers view plan listening)
    (hcache : inst.activeCache = none) {bs : List Bridge} (hnodup : (bs.map Bridge.name).Nodup)
    (hlistening : listening state) (store : φ) :
    RunsAll view plan bs state (inst.retransformAll vm bs state store) := by
  induction bs generalizing state store with
  | nil => exact ⟨fun _ h => absurd h List.not_mem_nil, fun _ h => absurd h List.not_mem_nil,
      fun _ _ => rfl⟩
  | cons b bs ih =>
    obtain ⟨hb, hnodup⟩ := List.nodup_cons.mp hnodup
    have hone := runsOne_retransformOne hvm hcache b hlistening store
    have hall := ih hnodup hone.listens (inst.retransformOne vm b state store).2.2
    -- the classes behind have other names, so their bytes are still the first ones
    have hne : ∀ b' ∈ bs, b'.name ≠ b.name :=
      fun b' hb' hname => hb (hname ▸ List.mem_map_of_mem hb')
    refine ⟨fun b' hb' => ?_, fun b' hb' => ?_, fun c hc => ?_⟩
    · rcases List.mem_cons.mp hb' with rfl | hb'
      · rw [retransformAll]
        simp only [List.lookup_cons_self, hone.outcome]
      · have hbeq : (b'.name == b.name) = false := beq_false_of_ne (hne b' hb')
        rw [← hone.others b'.name (hne b' hb'), ← hall.outcomes b' hb', retransformAll]
        simp only [List.lookup_cons, hbeq]
    · rcases List.mem_cons.mp hb' with rfl | hb'
      · exact (hall.others _ hb).trans hone.bytes
      · rw [← hone.others b'.name (hne b' hb')]
        exact hall.bytes b' hb'
    · obtain ⟨hcb, hc⟩ := not_or.mp (mt List.mem_cons.mpr hc)
      exact (hall.others c hc).trans (hone.others c hcb)

/-! ## Batches -/

/-- What a batch says of a class, if it got as far as the classes. -/
def Outcome.outcome? (out : Outcome σ φ BatchReport InstrumentError) (c : ClassName) :
    Option ClassOutcome :=
  match out.result with
  | .ok r | .error (.retransformFailed r) => r.outcome? c
  | .error _ => none

theorem outcome?_conclude (vm : Vm σ) (done : BatchReport × σ × φ) (c : ClassName) :
    (conclude vm done).outcome? c = done.1.outcome? c := by
  rw [conclude]
  split <;> rfl

/-- A batch without a cache, of classes that are all loaded, on a machine that delivers loads.  What
isolation needs of the machine is that its plans, with the memory in them, are the same in every
state in which it is listening. -/
structure Fresh (inst : Instrumenter φ) (vm : Vm σ) (view : σ → ClassName → Option Bytes)
    (plan : ClassName → LoadPlan) (listening : σ → Prop) (ts : List Transform) (state : σ) :
    Prop where
  delivers : vm.Delivers view plan listening
  enables : ∀ s, vm.setLoadHook state true = (.ok (), s) → listening s
  inactive : inst.activeCache = none
  loaded : ∀ t ∈ ts, vm.isLoaded state t.className = true

/-- The transforms of a class, in the order of the batch, as its bridge has them. -/
def ownBridge (ts : List Transform) (c : ClassName) : Bridge :=
  ⟨c, ts.filter fun t => t.className = c⟩

theorem ofTransforms_eq_map (ts : List Transform) :
    Bridge.ofTransforms ts = (batchClasses ts).map (ownBridge ts) := rfl

theorem ne_nil_of_mem_batchClasses {c : ClassName} (hc : c ∈ batchClasses ts) : ts ≠ [] := by
  obtain ⟨t, ht, -⟩ := mem_batchClasses.mp hc
  exact List.ne_nil_of_mem ht

namespace Fresh

/-- If the notification cannot be switched on, the batch says nothing of any class. -/
theorem refused (h : Fresh inst vm view plan listening ts state) {c : ClassName} {e : VmError}
    (herror : (vm.setLoadHook state true).1 = .error e) (hts : ts ≠ []) (store : φ) :
    (inst.instrument vm ts state store).outcome? c = none ∧
      view (inst.instrument vm ts state store).state = view state := by
  have henable : vm.setLoadHook state true = (.error e, (vm.setLoadHook state true).2) :=
    Prod.ext herror rfl
  rw [instrument_of_refused inst vm h.loaded hts henable]
  exact ⟨rfl, h.delivers.keeps state true⟩

/-- Otherwise every class comes to what it comes to on its own. -/
theorem enabled (h : Fresh inst vm view plan listening ts state)
    (hok : (vm.setLoadHook state true).1 = .ok ()) (hts : ts ≠ []) (store : φ) :
    (∀ c ∈ batchClasses ts,
      (inst.instrument vm ts state store).outcome? c =
        some ((ownBridge ts c).ownOutcome (plan c) (view state c)) ∧
      view (inst.instrument vm ts state store).state c =
        (ownBridge ts c).ownBytes (plan c) (view state c)) ∧
    ∀ c, c ∉ batchClasses ts → view (inst.instrument vm ts state store).state c = view state c := by
  have henable : vm.setLoadHook state true = (.ok (), (vm.setLoadHook state true).2) :=
    Prod.ext hok rfl
  have hnames := Bridge.map_name_ofTransforms ts
  have hnodup : ((Bridge.ofTransforms ts).map Bridge.name).Nodup := by
    rw [hnames]
    exact nodup_batchClasses ts
  have hcached : ∀ entries, ¬ inst.Cached store ((Bridge.ofTransforms ts).map Bridge.name)
      entries := by
    rintro entries ⟨-, cache, hcache, -⟩
    rw [h.inactive] at hcache
    cases hcache
  have hall := runsAll_retransformAll h.delivers h.inactive hnodup (h.enables _ henable) store
  have hview := h.delivers.keeps state true
  rw [instrument_of_enabled inst vm h.loaded hts henable,
    process_of_none (redefineFromCache_of_missing vm _ hcached)]
  simp only [outcome?_conclude, state_conclude, h.delivers.keeps]
  refine ⟨fun c hc => ?_, fun c hc => ?_⟩
  · have hmem : ownBridge ts c ∈ Bridge.ofTransforms ts := by
      rw [ofTransforms_eq_map]
      exact List.mem_map_of_mem hc
    rw [← hview]
    exact ⟨hall.outcomes _ hmem, hall.bytes _ hmem⟩
  · rw [← hview]
    exact hall.others c (by rw [hnames]; exact hc)

end Fresh

/-! ## Isolation -/

/-- Two batches, on machines of any kind, agree on everything about one class: its transforms and
their order, its bytes, and what the machine does for it, with which memory. -/
structure AgreeOn {τ : Type} (c : ClassName) (vm : Vm σ) (view : σ → ClassName → Option Bytes)
    (plan : ClassName → LoadPlan) (ts : List Transform) (state : σ) (vm' : Vm τ)
    (view' : τ → ClassName → Option Bytes) (plan' : ClassName → LoadPlan)
    (ts' : List Transform) (state' : τ) : Prop where
  transforms : (ts'.filter fun t => t.className = c) = ts.filter fun t => t.className = c
  bytes : view' state' c = view state c
  plans : plan' c = plan c
  enabled : (vm'.setLoadHook state' true).1 = (vm.setLoadHook state true).1

/-- A class is in a batch if it has transforms there. -/
theorem mem_batchClasses_iff_filter {c : ClassName} :
    c ∈ batchClasses ts ↔ (ts.filter fun t => t.className = c) ≠ [] := by
  rw [mem_batchClasses, ne_eq, List.filter_eq_nil_iff]
  simp

/-- A class comes to the same in two batches that agree on it. -/
theorem AgreeOn.same {τ ψ : Type} {c : ClassName} {vm' : Vm τ}
    {view' : τ → ClassName → Option Bytes} {plan' : ClassName → LoadPlan}
    {listening' : τ → Prop} {ts' : List Transform} {state' : τ} {inst' : Instrumenter ψ}
    (h : AgreeOn c vm view plan ts state vm' view' plan' ts' state')
    (hfresh : Fresh inst vm view plan listening ts state)
    (hfresh' : Fresh inst' vm' view' plan' listening' ts' state') (hc : c ∈ batchClasses ts)
    (store : φ) (store' : ψ) :
    (inst'.instrument vm' ts' state' store').outcome? c =
        (inst.instrument vm ts state store).outcome? c ∧
      view' (inst'.instrument vm' ts' state' store').state c =
        view (inst.instrument vm ts state store).state c := by
  have hc' : c ∈ batchClasses ts' := by
    rw [mem_batchClasses_iff_filter, h.transforms]
    exact mem_batchClasses_iff_filter.mp hc
  have hts := ne_nil_of_mem_batchClasses hc
  have hts' := ne_nil_of_mem_batchClasses hc'
  cases hanswer : (vm.setLoadHook state true).1 with
  | error e =>
    obtain ⟨houtcome, hview⟩ := hfresh.refused (c := c) hanswer hts store
    obtain ⟨houtcome', hview'⟩ := hfresh'.refused (c := c) (h.enabled.trans hanswer) hts' store'
    rw [houtcome, houtcome', hview, hview']
    exact ⟨rfl, h.bytes⟩
  | ok u =>
    obtain ⟨houtcome, hview⟩ := (hfresh.enabled hanswer hts store).1 c hc
    obtain ⟨houtcome', hview'⟩ :=
      (hfresh'.enabled (h.enabled.trans hanswer) hts' store').1 c hc'
    have hbridge : ownBridge ts' c = ownBridge ts c := congrArg (Bridge.mk c) h.transforms
    rw [houtcome, houtcome', hview, hview', hbridge, h.plans, h.bytes]
    exact ⟨rfl, rfl⟩

theorem agreeOn_filter (c : ClassName) (vm : Vm σ) (view : σ → ClassName → Option Bytes)
    (plan : ClassName → LoadPlan) (ts : List Transform) (state : σ) :
    AgreeOn c vm view plan ts state vm view plan (ts.filter fun t => t.className = c) state where
  transforms := by rw [List.filter_filter]; simp
  bytes := rfl
  plans := rfl
  enabled := rfl

theorem Fresh.filter (h : Fresh inst vm view plan listening ts state) (p : Transform → Bool) :
    Fresh inst vm view plan listening (ts.filter p) state :=
  { h with loaded := fun t ht => h.loaded t (List.mem_of_mem_filter ht) }

/-- The classes of a batch do not affect each other.  A plan holds whatever was done for other
classes before, and so does the memory in it, which answers by the size it is asked for alone. -/
structure Isolated (inst : Instrumenter φ) (vm : Vm σ) (view : σ → ClassName → Option Bytes)
    (plan : ClassName → LoadPlan) (ts : List Transform) (state : σ) (store : φ) : Prop where
  /-- A class comes to what it comes to in a batch of its own transforms. -/
  alone : ∀ c ∈ batchClasses ts, ∀ own, own = (ts.filter fun t => t.className = c) →
    (inst.instrument vm ts state store).outcome? c =
        (inst.instrument vm own state store).outcome? c ∧
      view (inst.instrument vm ts state store).state c =
        view (inst.instrument vm own state store).state c
  /-- It comes to the same in every batch that agrees on it, whatever there is beside it. -/
  independent : ∀ c ∈ batchClasses ts, ∀ {τ ψ : Type} (inst' : Instrumenter ψ) (vm' : Vm τ)
    (view' : τ → ClassName → Option Bytes) (plan' : ClassName → LoadPlan)
    (listening' : τ → Prop) (ts' : List Transform) (state' : τ) (store' : ψ),
    Fresh inst' vm' view' plan' listening' ts' state' →
    AgreeOn c vm view plan ts state vm' view' plan' ts' state' →
    (inst'.instrument vm' ts' state' store').outcome? c =
        (inst.instrument vm ts state store).outcome? c ∧
      view' (inst'.instrument vm' ts' state' store').state c =
        view (inst.instrument vm ts state store).state c
  /-- It has an outcome, if the notification can be switched on. -/
  reported : (vm.setLoadHook state true).1 = .ok () → ∀ c ∈ batchClasses ts,
    ∃ outcome, (inst.instrument vm ts state store).outcome? c = some outcome
  /-- All other classes keep their bytes. -/
  untouched : ∀ c, c ∉ batchClasses ts →
    view (inst.instrument vm ts state store).state c = view state c

/-- Batches without a cache, of classes that are loaded, on machines that deliver loads, isolate
their classes.  That neither the loads of a class nor its memory depend on the state of the machine
is part of delivering; nothing is said of machines that run short of memory on the way. -/
theorem isolated_of_fresh (h : Fresh inst vm view plan listening ts state) (store : φ) :
    Isolated inst vm view plan ts state store where
  alone := by
    rintro c hc own rfl
    have hsame := (agreeOn_filter c vm view plan ts state).same h (h.filter _) hc store store
    exact ⟨hsame.1.symm, hsame.2.symm⟩
  independent := fun c hc _ _ _ _ _ _ _ _ _ store' hfresh hagree =>
    hagree.same h hfresh hc store store'
  reported := fun hok c hc =>
    ⟨_, ((h.enabled hok (ne_nil_of_mem_batchClasses hc) store).1 c hc).1⟩
  untouched := by
    intro c hc
    by_cases hts : ts = []
    · subst hts
      rw [instrument_nil]
    · cases hanswer : (vm.setLoadHook state true).1 with
      | error e => rw [(h.refused (c := c) hanswer hts store).2]
      | ok u => exact (h.enabled hanswer hts store).2 c hc

/-- Every batch without a cache on a scripted machine is fresh, if its classes are loaded. -/
theorem fresh_scripted (hinactive : inst.activeCache = none) (allocate : Allocator)
    (vm : ScriptedVm) (hloaded : ∀ t ∈ ts, (vm.bytesOf? t.className).isSome = true) :
    Fresh inst (ScriptedVm.machine allocate) ScriptedVm.bytesOf?
      (ScriptedVm.planOf allocate vm.script)
      (fun s => s.script = vm.script ∧ s.hookEnabled = true) ts vm where
  delivers := ScriptedVm.delivers allocate vm.script
  enables := by
    intro s henable
    simp only [ScriptedVm.machine, if_true] at henable
    split at henable
    · cases henable
    · obtain rfl := congrArg Prod.snd henable
      exact ⟨rfl, rfl⟩
  inactive := hinactive
  loaded := hloaded

/-- A machine on which two classes load each other; one of them is refused in the end. -/
def crossing : ScriptedVm where
  script := ⟨none, some .notificationMode, none,
    [(⟨"A"⟩, ⟨none, some [⟨"B"⟩, ⟨"A"⟩, ⟨"C"⟩, ⟨"A"⟩], none⟩),
     (⟨"B"⟩, ⟨none, some [⟨"A"⟩, ⟨"B"⟩], some (.invalidClassFormat ⟨"B"⟩)⟩)]⟩
  hookEnabled := false
  classes := [(⟨"A"⟩, Container.image DexFile.unsortedContainer.bytes), (⟨"B"⟩, [1, 2, 3]),
    (⟨"C"⟩, [])]

/-- Transforms of the two classes in turn. -/
def interleaved : List Transform :=
  [⟨⟨⟨"A"⟩, "run", ⟨[], .void⟩⟩, .entry false, ⟨⟨"Hooks"⟩, "enter"⟩⟩,
   ⟨⟨⟨"B"⟩, "run", ⟨[], .void⟩⟩, .exit, ⟨⟨"Hooks"⟩, "leave"⟩⟩,
   ⟨⟨⟨"A"⟩, "run", ⟨[], .void⟩⟩, .exit, ⟨⟨"Hooks"⟩, "leave"⟩⟩]

/-- Batches that would use a cache, but have none. -/
def cacheless : Instrumenter Unit := ⟨none, true⟩

theorem isolated_of_fresh_crossing :
    Fresh cacheless (ScriptedVm.machine Allocator.heap) ScriptedVm.bytesOf?
        (ScriptedVm.planOf Allocator.heap crossing.script)
        (fun s => s.script = crossing.script ∧ s.hookEnabled = true) interleaved crossing ∧
      (cacheless.instrument (ScriptedVm.machine Allocator.heap) interleaved crossing ()).outcome?
          ⟨"B"⟩ =
        some (.failed "retransformation failed: The VM rejected the class bytes of B") ∧
      Isolated cacheless (ScriptedVm.machine Allocator.heap) ScriptedVm.bytesOf?
        (ScriptedVm.planOf Allocator.heap crossing.script) interleaved crossing () := by
  have hloaded : ∀ t ∈ interleaved, (crossing.bytesOf? t.className).isSome = true := by
    decide +kernel
  have hinactive : cacheless.activeCache = none := rfl
  have hfresh := fresh_scripted hinactive Allocator.heap crossing hloaded
  have hmem : ⟨"B"⟩ ∈ batchClasses interleaved := by
    decide +kernel
  obtain ⟨houtcome, -⟩ := (hfresh.enabled rfl (ne_nil_of_mem_batchClasses hmem) ()).1 _ hmem
  refine ⟨hfresh, ?_, isolated_of_fresh hfresh ()⟩
  rw [houtcome]
  decide +kernel

end Instrumenter

end DexWeave
