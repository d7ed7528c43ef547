/-
  DexWeave/Proofs/BatchProtocol.lean --- which calls a batch makes of the machine.

  WHAT THIS FILE IS FOR.  A batch is given up before any call, or it switches the
  notification of loads on, changes its classes, and switches the notification off again.
  The protocol here says which calls stand between the two, what the report holds, and what
  the reporter is told, for any machine and any cache.

  HOW.  The calls are read off the machine with a record.  Such a machine answers as the one
  without a record does, so each part of a batch is described by what it answers there and
  by the calls that it adds to the record.

  THE CACHE.  Where a batch is given up, what is left does not depend on the cache, and its
  state is the one before.
-/
import DexWeave.Instrument.Batch
import DexWeave.Vm.Logged
import DexWeave.Vm.Scripted
import Mathlib.Data.List.Nodup

set_option autoImplicit false

namespace DexWeave

/-! ## Distinct elements -/

theorem nodup_eraseDups {α : Type} [BEq α] [LawfulBEq α] (xs : List α) : xs.eraseDups.Nodup := by
  induction hlen : xs.length using Nat.strongRecOn generalizing xs with
  | ind n ih =>
    cases xs with
    | nil => exact List.nodup_nil
    | cons x xs =>
      rw [List.eraseDups_cons]
      have hshort : (xs.filter fun y => !y == x).length < n := by
        rw [← hlen]
        exact Nat.lt_succ_of_le (List.length_filter_le _ xs)
      refine List.nodup_cons.mpr ⟨fun hx => ?_, ih _ hshort _ rfl⟩
      have hne := (List.mem_filter.mp (List.mem_eraseDups.mp hx)).2
      simp at hne

/-- The classes of a batch, in the order in which they are first named. -/
def batchClasses (ts : List Transform) : List ClassName := (ts.map Transform.className).eraseDups

theorem mem_batchClasses {ts : List Transform} {c : ClassName} :
    c ∈ batchClasses ts ↔ ∃ t ∈ ts, t.className = c := by
  rw [batchClasses, List.mem_eraseDups, List.mem_map]

theorem nodup_batchClasses (ts : List Transform) : (batchClasses ts).Nodup := nodup_eraseDups _

/-! ## Reports -/

/-- Whether a class was not instrumented. -/
def ClassOutcome.isFailed : ClassOutcome → Bool
  | failed _ => true
  | redefined | retransformed => false

namespace BatchReport

variable {r : BatchReport}

theorem mem_failures {f : ClassFailure} :
    f ∈ r.failures ↔ (f.name, .failed f.reason) ∈ r.outcomes := by
  rw [failures, List.mem_filterMap]
  constructor
  · rintro ⟨⟨name, outcome⟩, hmem, h⟩
    cases outcome with
    | failed reason =>
      obtain rfl := Option.some.inj h
      exact hmem
    | redefined | retransformed => cases h
  · exact fun h => ⟨_, h, rfl⟩

/-- The failures are the outcomes that are failures, in order. -/
theorem map_failures (r : BatchReport) :
    (r.failures.map fun f => (f.name, ClassOutcome.failed f.reason)) =
      r.outcomes.filter fun entry => entry.2.isFailed := by
  obtain ⟨outcomes⟩ := r
  induction outcomes with
  | nil => rfl
  | cons entry outcomes ih =>
    obtain ⟨name, outcome⟩ := entry
    cases outcome with
    | failed reason => exact congrArg (_ :: ·) ih
    | redefined | retransformed => exact ih

/-- Failures are reported in the order of the outcomes. -/
theorem failures_sublist (r : BatchReport) :
    (r.failures.map fun f => (f.name, ClassOutcome.failed f.reason)).Sublist r.outcomes := by
  rw [map_failures]
  exact List.filter_sublist

end BatchReport

namespace Instrumenter

variable {σ φ : Type}

/-! ## Reading the cache -/

/-- The entry of every class, if all of them can be read. -/
structure Cached (inst : Instrumenter φ) (store : φ) (names : List ClassName)
    (entries : List (ClassName × Bytes)) : Prop where
  names_eq : entries.map Prod.fst = names
  read : ∃ cache, inst.activeCache = some cache ∧
    ∀ e ∈ entries, cache.read store e.1 = .ok (some e.2)

theorem cachedEntries_eq_some {cache : ClassCache φ} {store : φ} {names : List ClassName}
    {entries : List (ClassName × Bytes)} (h : cachedEntries cache store names = some entries) :
    entries.map Prod.fst = names ∧ ∀ e ∈ entries, cache.read store e.1 = .ok (some e.2) := by
  induction names generalizing entries with
  | nil =>
    obtain rfl := Option.some.inj h
    exact ⟨rfl, fun _ he => absurd he List.not_mem_nil⟩
  | cons name names ih =>
    rw [cachedEntries, List.mapM_cons] at h
    obtain ⟨entry, hentry, h⟩ := Option.bind_eq_some_iff.mp h
    obtain ⟨rest, hrest, h⟩ := Option.bind_eq_some_iff.mp h
    obtain rfl := Option.some.inj h
    obtain ⟨hnames, hread⟩ := ih hrest
    split at hentry
    · rename_i bytes hbytes
      obtain rfl := Option.some.inj hentry
      refine ⟨congrArg (name :: ·) hnames, fun e he => ?_⟩
      rcases List.mem_cons.mp he with rfl | he
      · exact hbytes
      · exact hread e he
    · cases hentry

theorem cachedEntries_of_read {cache : ClassCache φ} {store : φ}
    {entries : List (ClassName × Bytes)}
    (h : ∀ e ∈ entries, cache.read store e.1 = .ok (some e.2)) :
    cachedEntries cache store (entries.map Prod.fst) = some entries := by
  induction entries with
  | nil => rfl
  | cons e entries ih =>
    have hrest := ih fun e' he' => h e' (List.mem_cons_of_mem e he')
    rw [cachedEntries] at hrest
    rw [List.map_cons, cachedEntries, List.mapM_cons, h e List.mem_cons_self, hrest]
    rfl

/-! ## Loading classes again, with a record -/

theorem retransformOne_logged (inst : Instrumenter φ) (vm : Vm σ) (b : Bridge) (state : σ)
    (log : List VmCall) (store : φ) :
    inst.retransformOne vm.logged b (state, log) store =
      ((inst.retransformOne vm b state store).1,
        ((inst.retransformOne vm b state store).2.1, log ++ [.retransform b.name]),
        (inst.retransformOne vm b state store).2.2) := by
  have hrun := Loading.run_map (fun s => (s, log ++ [VmCall.retransform b.name]))
    b.hook .notReached (vm.retransform state b.name)
  rw [retransformOne, retransformOne]
  simp only [Vm.logged, hrun]

theorem retransformAll_logged (inst : Instrumenter φ) (vm : Vm σ) (bs : List Bridge) (state : σ)
    (log : List VmCall) (store : φ) :
    inst.retransformAll vm.logged bs (state, log) store =
      ((inst.retransformAll vm bs state store).1,
        ((inst.retransformAll vm bs state store).2.1,
          log ++ (bs.map Bridge.name).map .retransform),
        (inst.retransformAll vm bs state store).2.2) := by
  induction bs generalizing state log store with
  | nil =>
    rw [List.map_nil, List.map_nil, List.append_nil]
    rfl
  | cons b bs ih =>
    simp only [retransformAll, retransformOne_logged, ih, List.map_cons, List.append_assoc,
      List.singleton_append]

/-- There is one outcome for every class, in order. -/
theorem map_fst_retransformAll (inst : Instrumenter φ) (vm : Vm σ) (bs : List Bridge) (state : σ)
    (store : φ) :
    (inst.retransformAll vm bs state store).1.map Prod.fst = bs.map Bridge.name := by
  induction bs generalizing state store with
  | nil => rfl
  | cons b bs ih => exact congrArg (b.name :: ·) (ih _ _)

/-! ## Changing the classes of a batch -/

/-- The calls that change the classes: all of them get cached bytes in one call, if the cache has
all of them; unless that call is made and succeeds, every class is loaded again. -/
inductive Changes (inst : Instrumenter φ) (vm : Vm σ) (names : List ClassName) (state : σ)
    (store : φ) : List VmCall → Prop where
  | redefined (entries : List (ClassName × Bytes)) (hcached : inst.Cached store names entries)
    (hok : (vm.redefine state entries).1 = .ok ()) :
    Changes inst vm names state store [.redefine names]
  | refused (entries : List (ClassName × Bytes)) (hcached : inst.Cached store names entries)
    (e : VmError) (herror : (vm.redefine state entries).1 = .error e) :
    Changes inst vm names state store (.redefine names :: names.map .retransform)
  | reloaded (hmissing : ∀ entries, ¬ inst.Cached store names entries) :
    Changes inst vm names state store (names.map .retransform)

theorem process_of_none {inst : Instrumenter φ} {vm : Vm σ} {bs : List Bridge} {state s : σ}
    {store : φ} (h : inst.redefineFromCache vm bs state store = (none, s)) :
    inst.process vm bs state store =
      (⟨(inst.retransformAll vm bs s store).1⟩, (inst.retransformAll vm bs s store).2) := by
  rw [process, h]

theorem process_of_some {inst : Instrumenter φ} {vm : Vm σ} {bs : List Bridge} {state s : σ}
    {store : φ} {r : BatchReport}
    (h : inst.redefineFromCache vm bs state store = (some r, s)) :
    inst.process vm bs state store = (r, s, store) := by
  rw [process, h]

theorem redefineFromCache_of_missing {inst : Instrumenter φ} (vm : Vm σ) {bs : List Bridge}
    (state : σ) {store : φ} (h : ∀ entries, ¬ inst.Cached store (bs.map Bridge.name) entries) :
    inst.redefineFromCache vm bs state store = (none, state) := by
  rw [redefineFromCache]
  split
  · rfl
  · rename_i cache hcache
    split
    · rfl
    · rename_i entries hentries
      obtain ⟨hnames, hread⟩ := cachedEntries_eq_some hentries
      exact absurd ⟨hnames, cache, hcache, hread⟩ (h entries)

theorem Cached.redefineFromCache_eq {inst : Instrumenter φ} {bs : List Bridge} {store : φ}
    {entries : List (ClassName × Bytes)} (h : inst.Cached store (bs.map Bridge.name) entries)
    (vm : Vm σ) (state : σ) :
    inst.redefineFromCache vm bs state store =
      ((vm.redefine state entries).1.toOption.map fun _ =>
        ⟨bs.map fun b => (b.name, .redefined)⟩, (vm.redefine state entries).2) := by
  obtain ⟨cache, hcache, hread⟩ := h.read
  have hentries := cachedEntries_of_read hread
  rw [h.names_eq] at hentries
  rw [redefineFromCache, hcache]
  simp only [hentries]
  rcases vm.redefine state entries with ⟨_ | _, s⟩ <;> rfl

/-- A batch on the machine with a record ends as it does without one, and makes the calls that
change its classes. -/
theorem exists_changes (inst : Instrumenter φ) (vm : Vm σ) (bs : List Bridge) (state : σ)
    (log : List VmCall) (store : φ) :
    ∃ calls, inst.Changes vm (bs.map Bridge.name) state store calls ∧
      inst.process vm.logged bs (state, log) store =
        ((inst.process vm bs state store).1, ((inst.process vm bs state store).2.1, log ++ calls),
          (inst.process vm bs state store).2.2) := by
  by_cases hcached : ∃ entries, inst.Cached store (bs.map Bridge.name) entries
  · obtain ⟨entries, hcached⟩ := hcached
    have hplain := hcached.redefineFromCache_eq vm state
    have hlogged := hcached.redefineFromCache_eq vm.logged (state, log)
    have hcall : vm.logged.redefine (state, log) entries =
        ((vm.redefine state entries).1, (vm.redefine state entries).2,
          log ++ [.redefine (entries.map Prod.fst)]) := rfl
    rw [hcall, hcached.names_eq] at hlogged
    cases hresult : (vm.redefine state entries).1 with
    | ok u =>
      rw [hresult] at hplain hlogged
      refine ⟨_, .redefined entries hcached hresult, ?_⟩
      rw [process_of_some hlogged, process_of_some hplain]
    | error e =>
      rw [hresult] at hplain hlogged
      refine ⟨_, .refused entries hcached e hresult, ?_⟩
      rw [process_of_none hlogged, process_of_none hplain, retransformAll_logged,
        List.append_assoc]
      rfl
  · have hmissing := not_exists.mp hcached
    refine ⟨_, .reloaded hmissing, ?_⟩
    rw [process_of_none (redefineFromCache_of_missing vm.logged (state, log) hmissing),
      process_of_none (redefineFromCache_of_missing vm state hmissing), retransformAll_logged]

/-- The report of a batch has one outcome for every class, in order. -/
theorem map_fst_process (inst : Instrumenter φ) (vm : Vm σ) (bs : List Bridge) (state : σ)
    (store : φ) :
    (inst.process vm bs state store).1.outcomes.map Prod.fst = bs.map Bridge.name := by
  rw [process]
  split
  · rename_i report s h
    obtain ⟨entries, hcached⟩ : ∃ entries, inst.Cached store (bs.map Bridge.name) entries := by
      by_contra hnone
      rw [redefineFromCache_of_missing vm state (not_exists.mp hnone)] at h
      cases h
    rw [hcached.redefineFromCache_eq vm state] at h
    obtain ⟨-, -, rfl⟩ := Option.map_eq_some_iff.mp (congrArg Prod.fst h)
    rw [List.map_map]
    rfl
  · exact map_fst_retransformAll inst vm bs _ store

theorem retransformAll_setLoadHook (inst : Instrumenter φ) (vm : Vm σ)
    (switch : σ → Bool → Except VmError Unit × σ) (bs : List Bridge) (state : σ) (store : φ) :
    inst.retransformAll { vm with setLoadHook := switch } bs state store =
      inst.retransformAll vm bs state store := by
  induction bs generalizing state store with
  | nil => rfl
  | cons b bs ih =>
    rw [retransformAll, retransformAll]
    simp only [ih]
    rfl

/-- What changes the classes does not depend on how the notification is switched. -/
theorem process_setLoadHook (inst : Instrumenter φ) (vm : Vm σ)
    (switch : σ → Bool → Except VmError Unit × σ) (bs : List Bridge) (state : σ) (store : φ) :
    inst.process { vm with setLoadHook := switch } bs state store =
      inst.process vm bs state store := by
  rw [process, process]
  simp only [retransformAll_setLoadHook]
  rfl

/-! ## Batches -/

section Batch

variable (inst : Instrumenter φ) (vm : Vm σ) {ts : List Transform} {state s : σ} {store : φ}

theorem instrument_nil (state : σ) (store : φ) :
    inst.instrument vm [] state store = ⟨.ok .empty, [], state, store⟩ := rfl

variable {vm} in
theorem find?_isLoaded_eq_none (h : ∀ t ∈ ts, vm.isLoaded state t.className = true) :
    (ts.find? fun t => !vm.isLoaded state t.className) = none :=
  List.find?_eq_none.mpr fun t ht => by rw [h t ht]; exact Bool.false_ne_true

theorem instrument_of_notLoaded {front back : List Transform} {t : Transform}
    (hfront : ∀ u ∈ front, vm.isLoaded state u.className = true)
    (ht : vm.isLoaded state t.className = false) :
    inst.instrument vm (front ++ t :: back) state store =
      ⟨.error (.classNotFound t.className), [], state, store⟩ := by
  have hfind : ((front ++ t :: back).find? fun t => !vm.isLoaded state t.className) = some t := by
    rw [List.find?_append, find?_isLoaded_eq_none hfront, Option.none_or,
      List.find?_cons_of_pos (by rw [ht]; rfl)]
  rw [instrument, hfind]

theorem instrument_of_refused (hloaded : ∀ t ∈ ts, vm.isLoaded state t.className = true)
    (hts : ts ≠ []) {e : VmError} (h : vm.setLoadHook state true = (.error e, s)) :
    inst.instrument vm ts state store = ⟨.error (.eventSetup e), [], s, store⟩ := by
  have hempty : ¬ ts.isEmpty = true := fun h => hts (List.isEmpty_iff.mp h)
  rw [instrument, find?_isLoaded_eq_none hloaded]
  simp only [if_neg hempty, h]

/-- The end of a batch whose classes have been changed. -/
def conclude (done : BatchReport × σ × φ) :
    Outcome σ φ BatchReport InstrumentError :=
  if done.1.failures = [] then ⟨.ok done.1, [], (vm.setLoadHook done.2.1 false).2, done.2.2⟩
  else
    ⟨.error (.retransformFailed done.1), [.instrumentationFailures done.1.failures],
      (vm.setLoadHook done.2.1 false).2, done.2.2⟩

theorem instrument_of_enabled (hloaded : ∀ t ∈ ts, vm.isLoaded state t.className = true)
    (hts : ts ≠ []) (h : vm.setLoadHook state true = (.ok (), s)) :
    inst.instrument vm ts state store =
      conclude vm (inst.process vm (Bridge.ofTransforms ts) s store) := by
  have hempty : ¬ ts.isEmpty = true := fun h => hts (List.isEmpty_iff.mp h)
  rw [instrument, find?_isLoaded_eq_none hloaded]
  simp only [if_neg hempty, h, BatchReport.isSuccess]
  simp only [List.isEmpty_iff]
  rfl

/-- The ways a batch can go: a class is not loaded, there is nothing to do, the notification cannot
be switched on, or the classes are changed. -/
inductive Course (ts : List Transform) (state : σ) (store : φ) :
    Outcome σ φ BatchReport InstrumentError → Prop where
  | notLoaded (t : Transform) :
    Course ts state store ⟨.error (.classNotFound t.className), [], state, store⟩
  | empty (hts : ts = []) : Course ts state store ⟨.ok .empty, [], state, store⟩
  | refused (e : VmError) (s : σ) (h : vm.setLoadHook state true = (.error e, s)) :
    Course ts state store ⟨.error (.eventSetup e), [], s, store⟩
  | changed (s : σ) (hloaded : ∀ t ∈ ts, vm.isLoaded state t.className = true) (hts : ts ≠ [])
    (h : vm.setLoadHook state true = (.ok (), s)) :
    Course ts state store (conclude vm (inst.process vm (Bridge.ofTransforms ts) s store))

theorem course_instrument (ts : List Transform) (state : σ) (store : φ) :
    inst.Course vm ts state store (inst.instrument vm ts state store) := by
  cases hfind : ts.find? fun t => !vm.isLoaded state t.className with
  | some t =>
    unfold instrument
    rw [hfind]
    exact .notLoaded t
  | none =>
    have hloaded : ∀ t ∈ ts, vm.isLoaded state t.className = true :=
      fun t ht => by simpa using List.find?_eq_none.mp hfind t ht
    by_cases hts : ts = []
    · subst hts
      exact .empty rfl
    · rcases henable : vm.setLoadHook state true with ⟨e | ⟨⟨⟩⟩, s⟩
      · rw [instrument_of_refused inst vm hloaded hts henable]
        exact .refused e s henable
      · rw [instrument_of_enabled inst vm hloaded hts henable]
        exact .changed s hloaded hts henable

end Batch

/-! ## The protocol -/

/-- What is made of a report: it is the result if no class failed; otherwise the reporter is told
once, of exactly the classes that failed. -/
structure Outcome.Concludes (out : Outcome σ φ BatchReport InstrumentError) (r : BatchReport) :
    Prop where
  success : (∀ name reason, (name, .failed reason) ∉ r.outcomes) →
    out.result = .ok r ∧ out.notices = []
  failure : ∀ name reason, (name, .failed reason) ∈ r.outcomes →
    out.result = .error (.retransformFailed r) ∧
      out.notices = [.instrumentationFailures r.failures]
  told : ∀ name reason, ⟨name, reason⟩ ∈ r.failures ↔ (name, .failed reason) ∈ r.outcomes
  order : (r.failures.map fun f => (f.name, ClassOutcome.failed f.reason)).Sublist r.outcomes

theorem concludes_conclude (vm : Vm σ) (done : BatchReport × σ × φ) :
    (conclude vm done).Concludes done.1 where
  success := by
    intro hnone
    have hfailures : done.1.failures = [] :=
      List.eq_nil_iff_forall_not_mem.mpr fun f hf => hnone _ _ (BatchReport.mem_failures.mp hf)
    rw [conclude, if_pos hfailures]
    exact ⟨rfl, rfl⟩
  failure := by
    intro name reason hmem
    have hfailures : done.1.failures ≠ [] :=
      List.ne_nil_of_mem (BatchReport.mem_failures (f := ⟨name, reason⟩).mpr hmem)
    rw [conclude, if_neg hfailures]
    exact ⟨rfl, rfl⟩
  told := fun _ _ => BatchReport.mem_failures
  order := BatchReport.failures_sublist done.1

theorem state_conclude (vm : Vm σ) (done : BatchReport × σ × φ) :
    (conclude vm done).state = (vm.setLoadHook done.2.1 false).2 := by
  rw [conclude]
  split <;> rfl

end Instrumenter

/-- The machine with other answers to switching the notification off. -/
def Vm.answeringOff {σ : Type} (vm : Vm σ) (answer : σ → Except VmError Unit) : Vm σ :=
  { vm with setLoadHook := fun s enabled =>
      (if enabled then (vm.setLoadHook s enabled).1 else answer s, (vm.setLoadHook s enabled).2) }

namespace Instrumenter

variable {σ φ : Type}

/-- The protocol of a batch. -/
structure Protocol (inst : Instrumenter φ) (vm : Vm σ) (ts : List Transform) (state : σ)
    (store : φ) : Prop where
  /-- The first class that is not loaded ends the batch before any call. -/
  notLoaded : ∀ front t back, ts = front ++ t :: back →
    (∀ u ∈ front, vm.isLoaded state u.className = true) →
    vm.isLoaded state t.className = false →
    inst.instrument vm.logged ts (state, []) store =
      ⟨.error (.classNotFound t.className), [], (state, []), store⟩
  /-- Nothing is done for no transforms. -/
  empty : ts = [] →
    inst.instrument vm.logged ts (state, []) store = ⟨.ok .empty, [], (state, []), store⟩
  /-- If the notification cannot be switched on, no other call is made. -/
  refused : (∀ t ∈ ts, vm.isLoaded state t.className = true) → ts ≠ [] →
    ∀ e s, vm.setLoadHook state true = (.error e, s) →
    inst.instrument vm.logged ts (state, []) store =
      ⟨.error (.eventSetup e), [], (s, [.setLoadHook true]), store⟩
  /-- Otherwise the classes are changed between the two switches, and every one of them has its
  outcome. -/
  changed : (∀ t ∈ ts, vm.isLoaded state t.className = true) → ts ≠ [] →
    ∀ s, vm.setLoadHook state true = (.ok (), s) →
    ∃ calls report, inst.Changes vm (batchClasses ts) s store calls ∧
      (inst.instrument vm.logged ts (state, []) store).state.2 =
        [.setLoadHook true] ++ calls ++ [.setLoadHook false] ∧
      report.outcomes.map Prod.fst = batchClasses ts ∧
      (inst.instrument vm.logged ts (state, []) store).Concludes report
  /-- Every class is named once. -/
  targets : (batchClasses ts).Nodup ∧ ∀ c, c ∈ batchClasses ts ↔ ∃ t ∈ ts, t.className = c
  /-- What the machine answers to switching the notification off changes nothing. -/
  disabled : ∀ answer,
    inst.instrument (vm.answeringOff answer).logged ts (state, []) store =
      inst.instrument vm.logged ts (state, []) store

theorem instrument_answeringOff (inst : Instrumenter φ) (vm : Vm σ)
    (answer : σ → Except VmError Unit) (ts : List Transform) (state : σ) (log : List VmCall)
    (store : φ) :
    inst.instrument (vm.answeringOff answer).logged ts (state, log) store =
      inst.instrument vm.logged ts (state, log) store := by
  have hprocess : ∀ bs s, inst.process (vm.answeringOff answer).logged bs s store =
      inst.process vm.logged bs s store :=
    fun bs s => process_setLoadHook inst vm.logged (vm.answeringOff answer).logged.setLoadHook
      bs s store
  have hon : ∀ s, (vm.answeringOff answer).logged.setLoadHook s true =
      vm.logged.setLoadHook s true := fun _ => rfl
  have hoff : ∀ s, ((vm.answeringOff answer).logged.setLoadHook s false).2 =
      (vm.logged.setLoadHook s false).2 := fun _ => rfl
  rw [instrument, instrument]
  simp only [hprocess, hon, hoff]
  rfl

/-- Every batch on every machine keeps to the protocol. -/
theorem instrument_protocol (inst : Instrumenter φ) (vm : Vm σ) (ts : List Transform) (state : σ)
    (store : φ) : inst.Protocol vm ts state store where
  notLoaded := by
    rintro front t back rfl hfront ht
    exact instrument_of_notLoaded inst vm.logged hfront ht
  empty := by
    rintro rfl
    exact instrument_nil inst vm.logged (state, []) store
  refused := by
    intro hloaded hts e s h
    have hlogged : vm.logged.setLoadHook (state, []) true =
        (.error e, s, [.setLoadHook true]) := by
      simp only [Vm.logged, h, List.nil_append]
    exact instrument_of_refused inst vm.logged hloaded hts hlogged
  changed := by
    intro hloaded hts s h
    have hlogged : vm.logged.setLoadHook (state, []) true = (.ok (), s, [.setLoadHook true]) := by
      simp only [Vm.logged, h, List.nil_append]
    rw [instrument_of_enabled inst vm.logged hloaded hts hlogged]
    obtain ⟨calls, hchanges, hprocess⟩ :=
      exists_changes inst vm (Bridge.ofTransforms ts) s [.setLoadHook true] store
    have hnames := Bridge.map_name_ofTransforms ts
    rw [hnames] at hchanges
    refine ⟨calls, _, hchanges, ?_, ?_, concludes_conclude vm.logged _⟩
    · rw [state_conclude, hprocess]
      rfl
    · rw [map_fst_process, hnames, batchClasses]
  targets := ⟨nodup_batchClasses ts, fun _ => mem_batchClasses⟩
  disabled := fun answer => instrument_answeringOff inst vm answer ts state [] store

/-- Neither class can be read; both are loaded again, and the notification is switched off. -/
example :
    let change (owner : ClassName) (name : String) : Transform :=
      ⟨⟨owner, name, ⟨[], .void⟩⟩, .exit, ⟨⟨"Hooks"⟩, "leave"⟩⟩
    let vm : ScriptedVm := ⟨⟨none, some .notificationMode, none, []⟩, false,
      [(⟨"A"⟩, []), (⟨"B"⟩, [])]⟩
    ((Instrumenter.new (none : Option (ClassCache Unit))).instrument
      (ScriptedVm.machine Allocator.heap).logged
      [change ⟨"B"⟩ "run", change ⟨"A"⟩ "run", change ⟨"B"⟩ "stop"] (vm, []) ()).state.2 =
        [.setLoadHook true, .retransform ⟨"B"⟩, .retransform ⟨"A"⟩, .setLoadHook false] := by
  decide +kernel

end Instrumenter

end DexWeave
