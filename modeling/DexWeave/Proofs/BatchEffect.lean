/-
  DexWeave/Proofs/BatchEffect.lean --- what a batch does to the classes and to the cache.

  WHAT THIS FILE IS FOR.  A batch that may use a cache does one of three things: it leaves
  everything as it is, it gives all its classes their cached entries, or it loads all of them
  again.  `Instrumenter.Effect` says so with all that follows for the bytes of the classes, the
  cache, and the report, so that nothing behind it has to follow a batch through its exits.

  ENTRIES.  A class that was loaded again and got new bytes is an entry of the cache
  afterwards, if the cache is in use and the writing succeeds.  What is written is what the
  class has by then.

  MACHINES.  `Vm.Hosts` describes a machine by the bytes of its classes: it delivers loads while
  it is listening, and redefines all classes it is given or none.
-/
import DexWeave.Proofs.Isolation

set_option autoImplicit false

namespace DexWeave

theorem mem_of_lookup {α β : Type} [BEq α] [LawfulBEq α] {entries : List (α × β)} {key : α}
    {b : β} (h : entries.lookup key = some b) : (key, b) ∈ entries := by
  obtain ⟨front, back, rfl, -⟩ := List.lookup_eq_some_iff.mp h
  exact List.mem_append_right front List.mem_cons_self

theorem lookup_map_const {α β : Type} [BEq α] [LawfulBEq α] {keys : List α} {key : α} (b : β)
    (h : key ∈ keys) : (keys.map fun k => (k, b)).lookup key = some b := by
  induction keys with
  | nil => cases h
  | cons k keys ih =>
    rw [List.map_cons, List.lookup_cons]
    split
    · rfl
    · rename_i hne
      refine ih ((List.mem_cons.mp h).resolve_left fun heq => ?_)
      rw [heq, beq_self_eq_true] at hne
      cases hne

/-! ## Bytes given in one step -/

/-- The bytes of all classes after some of them got new ones, one after the other. -/
def bytesWith (bytes : ClassName → Option Bytes) (entries : List (ClassName × Bytes)) :
    ClassName → Option Bytes :=
  entries.foldl (fun bytes e => bytesAfter bytes e.1 (some e.2)) bytes

theorem bytesWith_of_not_mem {bytes : ClassName → Option Bytes}
    {entries : List (ClassName × Bytes)} {c : ClassName} (h : c ∉ entries.map Prod.fst) :
    bytesWith bytes entries c = bytes c := by
  induction entries generalizing bytes with
  | nil => rfl
  | cons e entries ih =>
    obtain ⟨hne, hc⟩ := not_or.mp (mt List.mem_cons.mpr h)
    exact (ih hc).trans (bytesAfter_of_ne bytes hne _)

theorem bytesWith_of_mem {bytes : ClassName → Option Bytes} {entries : List (ClassName × Bytes)}
    {e : ClassName × Bytes} (hnodup : (entries.map Prod.fst).Nodup) (he : e ∈ entries) :
    bytesWith bytes entries e.1 = some e.2 := by
  induction entries generalizing bytes with
  | nil => cases he
  | cons first entries ih =>
    obtain ⟨hfirst, hnodup⟩ := List.nodup_cons.mp hnodup
    rcases List.mem_cons.mp he with rfl | he
    · exact (bytesWith_of_not_mem hfirst).trans (bytesAfter_own bytes _ _)
    · exact ih hnodup he

/-! ## Machines -/

section Machines

variable {σ : Type}

/-- A machine that gives all classes it is asked to redefine their new bytes, or refuses and
changes none; it goes on listening. -/
structure Vm.Redefines (vm : Vm σ) (view : σ → ClassName → Option Bytes)
    (listening : σ → Prop) : Prop where
  stores : ∀ state entries, (vm.redefine state entries).1 = .ok () →
    view (vm.redefine state entries).2 = bytesWith (view state) entries
  refuses : ∀ state entries e, (vm.redefine state entries).1 = .error e →
    view (vm.redefine state entries).2 = view state
  listens : ∀ state entries, listening state → listening (vm.redefine state entries).2

/-- A machine that hosts the classes that have bytes in `view`. -/
structure Vm.Hosts (vm : Vm σ) (view : σ → ClassName → Option Bytes)
    (plan : ClassName → LoadPlan) (listening : σ → Prop) : Prop
    extends vm.Delivers view plan listening, vm.Redefines view listening where
  isLoaded_eq : ∀ state c, vm.isLoaded state c = (view state c).isSome
  enables : ∀ state s, vm.setLoadHook state true = (.ok (), s) → listening s

theorem Vm.Delivers.view_eq {vm : Vm σ} {view : σ → ClassName → Option Bytes}
    {plan : ClassName → LoadPlan} {listening : σ → Prop} {state s : σ} {enabled : Bool}
    {result : Except VmError Unit} (hvm : vm.Delivers view plan listening)
    (h : vm.setLoadHook state enabled = (result, s)) : view s = view state := by
  have hkeeps := hvm.keeps state enabled
  rwa [h] at hkeeps

end Machines

/-! ## The entry of a class -/

namespace Bridge

/-- A load of the own class is answered with new bytes and remembered as such, or fails. -/
theorem onLoad_own_cases (b : Bridge) (allocate : Allocator) (seen : BridgeOutcome)
    (bs : Bytes) :
    (∃ new, transformClass b.name b.transforms allocate bs = .ok new ∧
      b.onLoad allocate seen ⟨b.name, bs⟩ = (some new, .replaced new)) ∨
    ∃ e, transformClass b.name b.transforms allocate bs = .error e ∧
      b.onLoad allocate seen ⟨b.name, bs⟩ = (none, .failed e) := by
  rw [onLoad, if_pos rfl]
  cases transformClass b.name b.transforms allocate bs with
  | ok new => exact .inl ⟨new, rfl, rfl⟩
  | error e => exact .inr ⟨e, rfl, rfl⟩

end Bridge

/-- If the bridge saw its class replaced last, the class has the bytes it was given. -/
theorem LoadPlan.own_bytes_of_replaced {b : Bridge} {plan : LoadPlan} {bytes : Option Bytes}
    {seen : BridgeOutcome} (hseen : ∀ new, seen = .replaced new → bytes = some new) {new : Bytes}
    (h : (plan.own b bytes seen).2.2 = .replaced new) :
    (plan.own b bytes seen).2.1 = some new := by
  induction plan generalizing bytes seen with
  | done result => exact hseen new h
  | load allocate name resume ih =>
    rw [own] at h ⊢
    split at h
    · rename_i hname
      subst hname
      rw [if_pos rfl]
      rcases b.onLoad_own_cases allocate seen (bytes.getD []) with ⟨image, -, hload⟩ | ⟨e, -, hload⟩
      · rw [hload] at h ⊢
        refine ih (some image) (fun new' hnew => ?_) h
        cases hnew
        rfl
      · rw [hload] at h ⊢
        exact ih none (fun new' hnew => by cases hnew) h
    · rename_i hname
      rw [if_neg hname]
      exact ih none hseen h

namespace Bridge

variable {b : Bridge} {plan : LoadPlan} {bytes : Option Bytes}

/-- The entry that is written for the class of a bridge, if it got new bytes. -/
def ownEntry (b : Bridge) (plan : LoadPlan) (bytes : Option Bytes) :
    Option (ClassName × Bytes) :=
  match plan.own b bytes .notReached with
  | (.ok (), _, .replaced new) => some (b.name, new)
  | _ => none

theorem ownOutcome_ne_redefined : b.ownOutcome plan bytes ≠ .redefined := by
  rw [ownOutcome, Instrumenter.classOutcome.eq_def]
  split <;> exact ClassOutcome.noConfusion

/-- There is an entry exactly for a class that was retransformed, and it holds its bytes. -/
theorem ownEntry_eq_some_iff {e : ClassName × Bytes} :
    b.ownEntry plan bytes = some e ↔
      e.1 = b.name ∧ b.ownOutcome plan bytes = .retransformed ∧
        b.ownBytes plan bytes = some e.2 := by
  have hbytes := @LoadPlan.own_bytes_of_replaced b plan bytes .notReached
    (fun new h => by cases h)
  rw [ownEntry, ownOutcome, ownBytes]
  rcases hown : plan.own b bytes .notReached with ⟨_ | ⟨⟨⟩⟩, now, _ | new | error⟩ <;>
    rw [hown] at hbytes <;> simp only [Instrumenter.classOutcome, reduceCtorEq, false_and,
      and_false, Option.some.injEq, true_and]
  have hnow : now = some new := hbytes rfl
  rw [hnow, Option.some.injEq]
  constructor
  · rintro rfl
    exact ⟨rfl, rfl⟩
  · rintro ⟨hname, rfl⟩
    exact Prod.ext hname.symm rfl

theorem exists_ownEntry (h : b.ownOutcome plan bytes = .retransformed) :
    ∃ new, b.ownEntry plan bytes = some (b.name, new) := by
  rw [ownOutcome] at h
  rw [ownEntry]
  rcases hown : plan.own b bytes .notReached with ⟨_ | ⟨⟨⟩⟩, now, _ | new | error⟩ <;>
    rw [hown] at h
  case ok.replaced => exact ⟨new, rfl⟩
  all_goals cases h

end Bridge

/-! ## One load -/

/-- At most one load comes, of the class itself. -/
inductive LoadPlan.Single (c : ClassName) : LoadPlan → Prop where
  | done (result : Except VmError Unit) : Single c (.done result)
  | load (allocate : Allocator) (result : Option Bytes → Except VmError Unit) :
    Single c (.load allocate c fun returned => .done (result returned))

/-- A machine that hosts classes and loads each of them at most once when it is asked to. -/
def Vm.LoadsOnce {σ : Type} (vm : Vm σ) (view : σ → ClassName → Option Bytes) : Prop :=
  ∃ plan listening, vm.Hosts view plan listening ∧ ∀ c, (plan c).Single c

/-- A class that is loaded at most once keeps its bytes and fails, or is transformed. -/
theorem Bridge.own_of_single {b : Bridge} {plan : LoadPlan} (hplan : plan.Single b.name)
    (bytes : Option Bytes) :
    (b.ownBytes plan bytes = bytes ∧ ∃ reason, b.ownOutcome plan bytes = .failed reason) ∨
    ∃ allocate resume new, plan = .load allocate b.name resume ∧
      transformClass b.name b.transforms allocate (bytes.getD []) = .ok new ∧
      b.ownBytes plan bytes = some new := by
  rw [ownBytes, ownOutcome]
  cases hplan with
  | done result => exact .inl ⟨rfl, by rcases result with _ | ⟨⟨⟩⟩ <;> exact ⟨_, rfl⟩⟩
  | load allocate result =>
    simp only [LoadPlan.own, if_true]
    rcases b.onLoad_own_cases allocate .notReached (bytes.getD []) with
      ⟨new, hnew, hload⟩ | ⟨e, -, hload⟩
    · exact .inr ⟨allocate, _, new, rfl, hnew, by rw [hload]; rfl⟩
    · rw [hload]
      exact .inl ⟨rfl, by rcases result none with _ | ⟨⟨⟩⟩ <;> exact ⟨_, rfl⟩⟩

/-- A class that is loaded and can be transformed is transformed. -/
theorem Bridge.ownBytes_of_load {b : Bridge} {allocate : Allocator} {bytes : Option Bytes}
    {new : Bytes} (result : Option Bytes → Except VmError Unit)
    (h : transformClass b.name b.transforms allocate (bytes.getD []) = .ok new) :
    b.ownBytes (.load allocate b.name fun returned => .done (result returned)) bytes =
      some new := by
  simp only [ownBytes, LoadPlan.own, if_true, onLoad, h]
  rfl

namespace Instrumenter

variable {σ φ : Type} {inst : Instrumenter φ} {vm : Vm σ} {view : σ → ClassName → Option Bytes}
  {plan : ClassName → LoadPlan} {listening : σ → Prop} {ts : List Transform} {state s : σ}
  {store : φ} {b : Bridge} {bs : List Bridge}

/-! ## Loading classes again, with a cache -/

/-- Writes entries one after the other; failures are let pass. -/
def stashAll (inst : Instrumenter φ) (entries : List (ClassName × Bytes)) (store : φ) : φ :=
  entries.foldl (fun store e => inst.stash store e.1 e.2) store

/-- The entries that are written for the classes of a batch. -/
def entriesOf (plan : ClassName → LoadPlan) (bytes : ClassName → Option Bytes)
    (bs : List Bridge) : List (ClassName × Bytes) :=
  bs.filterMap fun b => b.ownEntry (plan b.name) (bytes b.name)

theorem entriesOf_congr {bytes bytes' : ClassName → Option Bytes}
    (h : ∀ b ∈ bs, bytes b.name = bytes' b.name) :
    entriesOf plan bytes bs = entriesOf plan bytes' bs :=
  List.filterMap_congr fun b hb => by rw [h b hb]

/-- What becomes of a class does not depend on the cache. -/
theorem runsOne_of_listening (inst : Instrumenter φ) (hvm : vm.Delivers view plan listening)
    (b : Bridge) (hlistening : listening state) (store : φ) :
    RunsOne view plan listening b state (inst.retransformOne vm b state store) :=
  have h : RunsOne view plan listening b state (cacheless.retransformOne vm b state ()) :=
    runsOne_retransformOne hvm rfl b hlistening ()
  ⟨h.outcome, h.bytes, h.listens, h.others⟩

theorem retransformAll_eq_cacheless (inst : Instrumenter φ) (vm : Vm σ) (bs : List Bridge)
    (state : σ) (store : φ) :
    (inst.retransformAll vm bs state store).1 = (cacheless.retransformAll vm bs state ()).1 ∧
      (inst.retransformAll vm bs state store).2.1 =
        (cacheless.retransformAll vm bs state ()).2.1 := by
  induction bs generalizing state store with
  | nil => exact ⟨rfl, rfl⟩
  | cons b bs ih =>
    obtain ⟨houtcomes, hstate⟩ := ih (inst.retransformOne vm b state store).2.1
      (inst.retransformOne vm b state store).2.2
    exact ⟨congrArg (_ :: ·) houtcomes, hstate⟩

/-- What becomes of the classes does not depend on the cache. -/
theorem runsAll_of_listening (inst : Instrumenter φ) (hvm : vm.Delivers view plan listening)
    (hnodup : (bs.map Bridge.name).Nodup) (hlistening : listening state) (store : φ) :
    RunsAll view plan bs state (inst.retransformAll vm bs state store) := by
  obtain ⟨houtcomes, hstate⟩ := retransformAll_eq_cacheless inst vm bs state store
  have h : RunsAll view plan bs state (cacheless.retransformAll vm bs state ()) :=
    runsAll_retransformAll hvm rfl hnodup hlistening ()
  constructor
  · rw [houtcomes]
    exact h.outcomes
  · rw [hstate]
    exact h.bytes
  · rw [hstate]
    exact h.others

theorem store_retransformOne (inst : Instrumenter φ) (hvm : vm.Delivers view plan listening)
    (b : Bridge) (hlistening : listening state) (store : φ) :
    (inst.retransformOne vm b state store).2.2 =
      inst.stashAll (entriesOf plan (view state) [b]) store := by
  have hruns := (hvm.loads state b.name hlistening).runsAs b .notReached
  have hresult := hruns.result
  have hseen := hruns.seen
  rw [retransformOne, entriesOf, List.filterMap_cons, Bridge.ownEntry]
  revert hresult hseen
  rcases (vm.retransform state b.name).run b.hook .notReached with ⟨⟨result, after⟩, seen⟩
  rcases (plan b.name).own b (view state b.name) .notReached with ⟨result', now, seen'⟩
  rintro rfl rfl
  rcases result with _ | ⟨⟨⟩⟩ <;> cases seen <;> rfl

/-- The cache gets the entries of the classes that were retransformed, in order. -/
theorem store_retransformAll (inst : Instrumenter φ) (hvm : vm.Delivers view plan listening)
    (hnodup : (bs.map Bridge.name).Nodup) (hlistening : listening state) (store : φ) :
    (inst.retransformAll vm bs state store).2.2 =
      inst.stashAll (entriesOf plan (view state) bs) store := by
  induction bs generalizing state store with
  | nil => rfl
  | cons b bs ih =>
    obtain ⟨hb, hnodup⟩ := List.nodup_cons.mp hnodup
    have hone := runsOne_of_listening inst hvm b hlistening store
    have hrest : entriesOf plan (view (inst.retransformOne vm b state store).2.1) bs =
        entriesOf plan (view state) bs :=
      entriesOf_congr fun b' hb' =>
        hone.others b'.name fun hname => hb (hname ▸ List.mem_map_of_mem hb')
    have hcons : entriesOf plan (view state) (b :: bs) =
        entriesOf plan (view state) [b] ++ entriesOf plan (view state) bs :=
      List.filterMap_append (l := [b])
    rw [retransformAll, hcons, stashAll, List.foldl_append, ← stashAll, ← stashAll,
      ← store_retransformOne inst hvm b hlistening store, ← hrest]
    exact ih hnodup hone.listens _

/-! ## Batches -/

theorem store_conclude (vm : Vm σ) (done : BatchReport × σ × φ) :
    (conclude vm done).store = done.2.2 := by
  rw [conclude]
  split <;> rfl

theorem eq_of_conclude_eq_ok {done : BatchReport × σ × φ} {r : BatchReport}
    (h : (conclude vm done).result = .ok r) : r = done.1 ∧ done.1.failures = [] := by
  rw [conclude] at h
  split at h
  · rename_i hfailures
    exact ⟨(Except.ok.inj h).symm, hfailures⟩
  · cases h

/-- All classes of a batch were loaded again, and have come to what they come to on their own. -/
structure Reloaded (inst : Instrumenter φ) (view : σ → ClassName → Option Bytes)
    (plan : ClassName → LoadPlan) (ts : List Transform) (state : σ) (store : φ)
    (out : Outcome σ φ BatchReport InstrumentError) : Prop where
  bytes : ∀ c ∈ batchClasses ts,
    view out.state c = (ownBridge ts c).ownBytes (plan c) (view state c)
  others : ∀ c, c ∉ batchClasses ts → view out.state c = view state c
  store_eq : out.store =
    inst.stashAll (entriesOf plan (view state) (Bridge.ofTransforms ts)) store
  outcome : ∀ c ∈ batchClasses ts, out.outcome? c =
    some ((ownBridge ts c).ownOutcome (plan c) (view state c))
  success : ∀ r, out.result = .ok r → ∀ c ∈ batchClasses ts,
    (ownBridge ts c).ownOutcome (plan c) (view state c) = .retransformed

namespace Reloaded

variable {out : Outcome σ φ BatchReport InstrumentError} {e : ClassName × Bytes}

/-- An entry that is written is what its class has by then. -/
theorem of_mem_entries (h : Reloaded inst view plan ts state store out)
    (he : e ∈ entriesOf plan (view state) (Bridge.ofTransforms ts)) :
    e.1 ∈ batchClasses ts ∧ out.outcome? e.1 = some .retransformed ∧
      view out.state e.1 = some e.2 := by
  obtain ⟨b, hb, hentry⟩ := List.mem_filterMap.mp he
  rw [ofTransforms_eq_map] at hb
  obtain ⟨c, hc, rfl⟩ := List.mem_map.mp hb
  obtain ⟨hname, houtcome, hbytes⟩ := Bridge.ownEntry_eq_some_iff.mp hentry
  obtain rfl : e.1 = c := hname
  exact ⟨hc, (h.outcome _ hc).trans (congrArg some houtcome), (h.bytes _ hc).trans hbytes⟩

/-- A class that was loaded once and could be transformed was transformed. -/
theorem bytes_of_load {c : ClassName} {allocate : Allocator} {old new : Bytes}
    {result : Option Bytes → Except VmError Unit}
    (h : Reloaded inst view plan ts state store out) (hc : c ∈ batchClasses ts)
    (hplan : plan c = .load allocate c fun returned => .done (result returned))
    (hold : view state c = some old)
    (hnew : transformClass c (ownBridge ts c).transforms allocate old = .ok new) :
    view out.state c = some new := by
  rw [h.bytes c hc, hplan, hold]
  exact Bridge.ownBytes_of_load (b := ownBridge ts c) result hnew

/-- A class that was not loaded keeps its bytes, and the batch fails. -/
theorem kept_of_done {c : ClassName} {result : Except VmError Unit}
    (h : Reloaded inst view plan ts state store out) (hc : c ∈ batchClasses ts)
    (hplan : plan c = .done result) :
    view out.state c = view state c ∧ ∀ r, out.result ≠ .ok r := by
  refine ⟨(h.bytes c hc).trans (by rw [hplan]; rfl), fun r hr => ?_⟩
  have hsuccess := h.success r hr c hc
  rw [hplan] at hsuccess
  rcases result with _ | ⟨⟨⟩⟩ <;> cases hsuccess

/-- A success has written an entry for every class, in order. -/
theorem map_fst_entries {r : BatchReport} (h : Reloaded inst view plan ts state store out)
    (hok : out.result = .ok r) :
    (entriesOf plan (view state) (Bridge.ofTransforms ts)).map Prod.fst =
      batchClasses ts := by
  have hentry : ∀ c ∈ batchClasses ts, Option.map Prod.fst
      ((ownBridge ts c).ownEntry (plan c) (view state c)) = some c := by
    intro c hc
    obtain ⟨new, hnew⟩ := Bridge.exists_ownEntry (h.success r hok c hc)
    rw [hnew]
    rfl
  rw [entriesOf, ofTransforms_eq_map, List.filterMap_map, List.map_filterMap]
  exact (List.filterMap_congr hentry).trans List.filterMap_some

end Reloaded

/-- What a batch did to the classes and to the cache, and what it says of it. -/
inductive Effect (inst : Instrumenter φ) (view : σ → ClassName → Option Bytes)
    (plan : ClassName → LoadPlan) (ts : List Transform) (state : σ) (store : φ)
    (out : Outcome σ φ BatchReport InstrumentError) : Prop where
  /-- Everything is as it was; unless there was nothing to do, the batch failed. -/
  | kept (hview : view out.state = view state) (hstore : out.store = store)
    (houtcome : ∀ c, out.outcome? c = none) (hok : ∀ r, out.result = .ok r → ts = [])
  /-- All classes have their cached entries. -/
  | redefined (entries : List (ClassName × Bytes))
    (hcached : inst.Cached store (batchClasses ts) entries)
    (hview : view out.state = bytesWith (view state) entries) (hstore : out.store = store)
    (hresult : out.result = .ok ⟨(batchClasses ts).map fun c => (c, .redefined)⟩)
  /-- All classes were loaded again. -/
  | reloaded (h : Reloaded inst view plan ts state store out)

theorem reloaded_conclude (hvm : vm.Hosts view plan listening) (hlistening : listening s)
    (hview : view s = view state) (store : φ) :
    Reloaded inst view plan ts state store
      (conclude vm
        (⟨(inst.retransformAll vm (Bridge.ofTransforms ts) s store).1⟩,
          (inst.retransformAll vm (Bridge.ofTransforms ts) s store).2)) := by
  have hnames := Bridge.map_name_ofTransforms ts
  have hnodup : ((Bridge.ofTransforms ts).map Bridge.name).Nodup := by
    rw [hnames]
    exact nodup_batchClasses ts
  have hruns := runsAll_of_listening inst hvm.toDelivers hnodup hlistening store
  have hstore := store_retransformAll inst hvm.toDelivers hnodup hlistening store
  have hmem : ∀ c ∈ batchClasses ts, ownBridge ts c ∈ Bridge.ofTransforms ts :=
    fun c hc => by
      rw [ofTransforms_eq_map]
      exact List.mem_map_of_mem hc
  rw [hview] at hstore
  refine ⟨fun c hc => ?_, fun c hc => ?_, ?_, fun c hc => ?_, fun r hr c hc => ?_⟩
  · rw [state_conclude, hvm.keeps, ← hview]
    exact hruns.bytes _ (hmem c hc)
  · rw [state_conclude, hvm.keeps, ← hview]
    exact hruns.others c (by rw [hnames]; exact hc)
  · rw [store_conclude]
    exact hstore
  · rw [outcome?_conclude, ← hview]
    exact hruns.outcomes _ (hmem c hc)
  · obtain ⟨-, hfailures⟩ := eq_of_conclude_eq_ok hr
    have houtcome := mem_of_lookup (hruns.outcomes _ (hmem c hc))
    rw [hview] at houtcome
    cases hown : (ownBridge ts c).ownOutcome (plan c) (view state c) with
    | redefined => exact absurd hown Bridge.ownOutcome_ne_redefined
    | retransformed => rfl
    | failed reason =>
      have hfailed : ⟨c, reason⟩ ∈ (BatchReport.mk
          (inst.retransformAll vm (Bridge.ofTransforms ts) s store).1).failures :=
        BatchReport.mem_failures.mpr (hown ▸ houtcome)
      rw [hfailures] at hfailed
      cases hfailed

/-- A batch whose classes all have an entry, on a machine that redefines them. -/
theorem instrument_of_cached {entries : List (ClassName × Bytes)} {s' : σ}
    (hloaded : ∀ t ∈ ts, vm.isLoaded state t.className = true) (hts : ts ≠ [])
    (henable : vm.setLoadHook state true = (.ok (), s))
    (hcached : inst.Cached store (batchClasses ts) entries)
    (hredefine : vm.redefine s entries = (.ok (), s')) :
    inst.instrument vm ts state store =
      ⟨.ok ⟨(batchClasses ts).map fun c => (c, .redefined)⟩, [], (vm.setLoadHook s' false).2,
        store⟩ := by
  have hnames : (Bridge.ofTransforms ts).map Bridge.name = batchClasses ts :=
    Bridge.map_name_ofTransforms ts
  have hentries : inst.redefineFromCache vm (Bridge.ofTransforms ts) s store = _ :=
    Cached.redefineFromCache_eq (hnames.symm ▸ hcached) vm s
  rw [hredefine] at hentries
  have hreport : (Bridge.ofTransforms ts).map (fun b => (b.name, ClassOutcome.redefined)) =
      (batchClasses ts).map fun c => (c, .redefined) := by
    rw [← hnames, List.map_map]
    rfl
  have hfailures : (BatchReport.mk ((batchClasses ts).map fun c => (c, .redefined))).failures =
      [] := by
    rw [BatchReport.failures, List.filterMap_map]
    exact List.filterMap_eq_nil_iff.mpr fun _ _ => rfl
  rw [instrument_of_enabled inst vm hloaded hts henable, process_of_some hentries, hreport,
    conclude, if_pos hfailures]

/-- A batch without an entry for every class loads all of them again, once the notification is
on. -/
theorem reloaded_of_missing (hvm : vm.Hosts view plan listening)
    (hloaded : ∀ t ∈ ts, vm.isLoaded state t.className = true) (hts : ts ≠ [])
    (henable : vm.setLoadHook state true = (.ok (), s))
    (hmissing : ∀ entries, ¬ inst.Cached store (batchClasses ts) entries) :
    Reloaded inst view plan ts state store (inst.instrument vm ts state store) := by
  have hnames : (Bridge.ofTransforms ts).map Bridge.name = batchClasses ts :=
    Bridge.map_name_ofTransforms ts
  rw [instrument_of_enabled inst vm hloaded hts henable,
    process_of_none (redefineFromCache_of_missing vm s (hnames.symm ▸ hmissing))]
  exact reloaded_conclude hvm (hvm.enables state s henable) (hvm.view_eq henable) store

/-- Every batch on a machine that hosts classes has one of the three effects. -/
theorem effect_instrument (hvm : vm.Hosts view plan listening) (inst : Instrumenter φ)
    (ts : List Transform) (state : σ) (store : φ) :
    Effect inst view plan ts state store (inst.instrument vm ts state store) := by
  have hcourse := course_instrument inst vm ts state store
  generalize inst.instrument vm ts state store = out at hcourse ⊢
  cases hcourse with
  | notLoaded t => exact .kept rfl rfl (fun _ => rfl) fun r hr => by cases hr
  | empty hts => exact .kept rfl rfl (fun _ => rfl) fun _ _ => hts
  | refused e s henable =>
    exact .kept (hvm.view_eq henable) rfl (fun _ => rfl) fun r hr => by cases hr
  | changed s hloaded hts henable =>
    have hview := hvm.view_eq henable
    have hlistening := hvm.enables state s henable
    have hnames : (Bridge.ofTransforms ts).map Bridge.name = batchClasses ts :=
      Bridge.map_name_ofTransforms ts
    rw [← instrument_of_enabled inst vm hloaded hts henable]
    by_cases hcached : ∃ entries, inst.Cached store (batchClasses ts) entries
    · obtain ⟨entries, hcached⟩ := hcached
      cases hredefine : (vm.redefine s entries).1 with
      | ok u =>
        have hpair : vm.redefine s entries = (.ok (), (vm.redefine s entries).2) :=
          Prod.ext hredefine rfl
        rw [instrument_of_cached hloaded hts henable hcached hpair]
        refine .redefined entries hcached ?_ rfl rfl
        rw [hvm.keeps, hvm.stores s entries hredefine, hview]
      | error e =>
        have hentries : inst.redefineFromCache vm (Bridge.ofTransforms ts) s store = _ :=
          Cached.redefineFromCache_eq (hnames.symm ▸ hcached) vm s
        rw [hredefine] at hentries
        rw [instrument_of_enabled inst vm hloaded hts henable, process_of_none hentries]
        exact .reloaded (reloaded_conclude hvm (hvm.listens s entries hlistening)
          ((hvm.refuses s entries e hredefine).trans hview) store)
    · exact .reloaded (reloaded_of_missing hvm hloaded hts henable (not_exists.mp hcached))

/-! ## Successful batches -/

theorem isLoaded_of_instrument_eq_ok {r : BatchReport}
    (h : (inst.instrument vm ts state store).result = .ok r) :
    ∀ t ∈ ts, vm.isLoaded state t.className = true := by
  cases hfind : ts.find? fun t => !vm.isLoaded state t.className with
  | some t =>
    rw [instrument, hfind] at h
    cases h
  | none => exact fun t ht => by simpa using List.find?_eq_none.mp hfind t ht

theorem setLoadHook_of_instrument_eq_ok {r : BatchReport} (hts : ts ≠ [])
    (h : (inst.instrument vm ts state store).result = .ok r) :
    (vm.setLoadHook state true).1 = .ok () := by
  rcases henable : vm.setLoadHook state true with ⟨e | ⟨⟨⟩⟩, s⟩
  · rw [instrument_of_refused inst vm (isLoaded_of_instrument_eq_ok h) hts henable] at h
    cases h
  · rfl

/-- The report of a success has one outcome for every class, in order. -/
theorem map_fst_of_instrument_eq_ok {r : BatchReport} (hts : ts ≠ [])
    (h : (inst.instrument vm ts state store).result = .ok r) :
    r.outcomes.map Prod.fst = batchClasses ts := by
  have henable : vm.setLoadHook state true = (.ok (), (vm.setLoadHook state true).2) :=
    Prod.ext (setLoadHook_of_instrument_eq_ok hts h) rfl
  rw [instrument_of_enabled inst vm (isLoaded_of_instrument_eq_ok h) hts henable] at h
  rw [(eq_of_conclude_eq_ok h).1, map_fst_process]
  exact Bridge.map_name_ofTransforms ts

/-- A success without an entry for every class has loaded all of them again. -/
theorem reloaded_of_instrument_eq_ok {r : BatchReport} (hvm : vm.Hosts view plan listening)
    (hts : ts ≠ []) (hmissing : ∀ entries, ¬ inst.Cached store (batchClasses ts) entries)
    (h : (inst.instrument vm ts state store).result = .ok r) :
    Reloaded inst view plan ts state store (inst.instrument vm ts state store) := by
  have henable : vm.setLoadHook state true = (.ok (), (vm.setLoadHook state true).2) :=
    Prod.ext (setLoadHook_of_instrument_eq_ok hts h) rfl
  exact reloaded_of_missing hvm (isLoaded_of_instrument_eq_ok h) hts henable hmissing

end Instrumenter

/-! ## Scripts -/

/-- The scripted machine whose script stands beside its state, so that the same classes can be
used with one script after another. -/
def ScriptedVm.following (script : VmScript) (allocate : Allocator) : Vm ScriptedVm where
  isLoaded := (machine allocate).isLoaded
  setLoadHook vm := (machine allocate).setLoadHook { vm with script := script }
  redefine vm := (machine allocate).redefine { vm with script := script }
  retransform vm := (machine allocate).retransform { vm with script := script }

namespace ScriptedVm

theorem bytesOf?_foldl_store (entries : List (ClassName × Bytes)) (vm : ScriptedVm) :
    (entries.foldl (fun vm d => vm.store d.1 d.2) vm).bytesOf? = bytesWith vm.bytesOf? entries := by
  induction entries generalizing vm with
  | nil => rfl
  | cons e entries ih =>
    have hstore : (vm.store e.1 e.2).bytesOf? = bytesAfter vm.bytesOf? e.1 (some e.2) :=
      funext fun c => bytesOf?_store vm e.1 c e.2
    rw [List.foldl_cons, ih, hstore]
    rfl

theorem follows_foldl_store {script : VmScript} (entries : List (ClassName × Bytes))
    (vm : ScriptedVm) (h : vm.script = script ∧ vm.hookEnabled = true) :
    (entries.foldl (fun vm d => vm.store d.1 d.2) vm).script = script ∧
      (entries.foldl (fun vm d => vm.store d.1 d.2) vm).hookEnabled = true := by
  induction entries generalizing vm with
  | nil => exact h
  | cons e entries ih => exact ih (vm.store e.1 e.2) h

/-- A scripted machine hosts its classes. -/
theorem hosts_following (script : VmScript) (allocate : Allocator) :
    (following script allocate).Hosts bytesOf? (planOf allocate script)
      (fun vm => vm.script = script ∧ vm.hookEnabled = true) where
  keeps := fun vm => (delivers allocate script).keeps { vm with script := script }
  loads := fun vm c h =>
    (delivers allocate script).loads { vm with script := script } c ⟨rfl, h.2⟩
  stores := by
    intro vm entries h
    simp only [following, machine] at h ⊢
    split at h
    · cases h
    · exact bytesOf?_foldl_store entries { vm with script := script }
  refuses := by
    intro vm entries e h
    simp only [following, machine] at h ⊢
    split at h
    · rfl
    · cases h
  listens := by
    intro vm entries h
    simp only [following, machine]
    split
    · exact ⟨rfl, h.2⟩
    · exact follows_foldl_store entries { vm with script := script } ⟨rfl, h.2⟩
  isLoaded_eq := fun _ _ => rfl
  enables := by
    intro vm s henable
    simp only [following, machine, if_true] at henable
    split at henable
    · cases henable
    · obtain rfl := congrArg Prod.snd henable
      exact ⟨rfl, rfl⟩

theorem planOf_of_lookup {allocate : Allocator} {script : VmScript} {c : ClassName}
    (h : script.retransform.lookup c = none) :
    planOf allocate script c = .load allocate c fun _ => .done (.ok ()) := by
  simp only [planOf, h]
  rfl

theorem planOf_of_error {allocate : Allocator} {script : VmScript} {c : ClassName} {e : VmError}
    (entry : RetransformScript) (h : script.retransform.lookup c = some entry)
    (herror : entry.error = some e) :
    planOf allocate script c = .done (.error e) := by
  simp only [planOf, h, Option.getD_some, herror]

/-- Where the script does not say otherwise, a class is loaded once. -/
theorem single_planOf (allocate : Allocator) {script : VmScript}
    (h : ∀ e ∈ script.retransform, e.2.events = none) (c : ClassName) :
    (planOf allocate script c).Single c := by
  have hevents : ((script.retransform.lookup c).getD ⟨none, none, none⟩).events = none := by
    cases hentry : script.retransform.lookup c with
    | none => rfl
    | some entry => exact h _ (mem_of_lookup hentry)
  simp only [planOf, hevents]
  split
  · exact .done _
  · exact .load allocate _

theorem loadsOnce_following {script : VmScript} (h : ∀ e ∈ script.retransform, e.2.events = none)
    (allocate : Allocator) : (following script allocate).LoadsOnce bytesOf? :=
  ⟨planOf allocate script, _, hosts_following script allocate, single_planOf allocate h⟩

/-- No call fails, and every class is loaded as itself. -/
def quiet : VmScript := ⟨none, none, none, []⟩

/-- A machine with a class that can be read and one that cannot. -/
def twoLoaded : ScriptedVm where
  script := quiet
  hookEnabled := false
  classes := [(⟨"A"⟩, Container.image DexFile.unsortedContainer.bytes), (⟨"B"⟩, [1, 2, 3])]

end ScriptedVm

/-- Calls a hook on entry of a method of the class that can be read. -/
def Transform.hookRun (hook : String) : Transform :=
  ⟨⟨⟨"A"⟩, "run", ⟨[], .void⟩⟩, .entry false, ⟨⟨"Hooks"⟩, hook⟩⟩

end DexWeave
