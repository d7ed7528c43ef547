/-
  DexWeave/Proofs/EntryProvenance.lean --- where the bytes of instrumented classes come from.

  WHAT THIS FILE IS FOR.  Batches that share a cache, with caching switched on or off from one
  to the next, pick up entries that others have written.  The theorem here says what a class
  has after a success: what the batch itself made of the bytes the class was loaded with, or
  what an earlier batch that wrote to the cache made, with its own transforms, of the bytes a
  class with the same entry was loaded with then.

  WHAT DOES NOT HOLD.  An entry is found by the name of its class alone.  A batch that finds one
  takes it whatever transforms it was made with, so a success need not have applied its own.

  HOW.  That every entry was made by an earlier batch is kept by each batch, by its effect, and
  so by a run.
-/
import DexWeave.Proofs.BridgeLoad
import DexWeave.Proofs.CacheAgreement

set_option autoImplicit false

namespace DexWeave

/-! ## Runs -/

/-- A batch that is to be run. -/
structure BatchCall (σ : Type) where
  /-- The machine, as it behaves for this batch. -/
  vm : Vm σ
  /-- Whether caching is switched on. -/
  caching : Bool
  /-- The transforms. -/
  transforms : List Transform

/-- A batch of a run, with the state that it started from. -/
structure BatchStep (σ φ : Type) extends BatchCall σ where
  /-- The state of the machine before. -/
  before : σ
  /-- The end of the batch. -/
  out : Instrumenter.Outcome σ φ BatchReport InstrumentError

/-- Runs one batch. -/
def BatchCall.run {σ φ : Type} (cache : ClassCache φ) (call : BatchCall σ) (state : σ)
    (store : φ) : BatchStep σ φ where
  toBatchCall := call
  before := state
  out := Instrumenter.instrument ⟨some cache, call.caching⟩ call.vm call.transforms state store

/-- Batches that share a cache, each in the state the one before has left. -/
def instrumentInTurn {σ φ : Type} (cache : ClassCache φ) :
    σ → φ → List (BatchCall σ) → List (BatchStep σ φ)
  | _, _, [] => []
  | state, store, call :: calls =>
    let step := call.run cache state store
    step :: instrumentInTurn cache step.out.state step.out.store calls

section Provenance

open Instrumenter

variable {σ φ κ : Type} {cache : ClassCache φ} {key : ClassName → κ} {inst : Instrumenter φ}
  {vm : Vm σ} {view : σ → ClassName → Option Bytes} {plan : ClassName → LoadPlan}
  {listening : σ → Prop} {ts : List Transform} {state : σ} {store : φ}
  {history : List (BatchStep σ φ)} {c : ClassName} {bytes : Bytes} {root : Path}
  {files : FileTree}

/-- The memory with which the machine loads a class again, once its notification is on. -/
def BatchStep.LoadsWith (step : BatchStep σ φ) (c : ClassName) (allocate : Allocator) : Prop :=
  ∃ event resume, step.vm.retransform (step.vm.setLoadHook step.before true).2 c =
    .load allocate event resume

/-- The batch made these bytes, in memory of the machine, of those that the class was loaded
with. -/
structure BatchStep.Made (step : BatchStep σ φ) (view : σ → ClassName → Option Bytes)
    (c : ClassName) (bytes : Bytes) : Prop where
  target : c ∈ batchClasses step.transforms
  outcome : step.out.outcome? c = some .retransformed
  transformed : ∃ allocate, step.LoadsWith c allocate ∧
    transformClass c (step.transforms.filter fun t => t.className = c) allocate
      ((view step.before c).getD []) = .ok bytes

/-- One of the batches, one with a cache, made these bytes for a class with the same entry. -/
def MadeEarlier (history : List (BatchStep σ φ)) (key : ClassName → κ)
    (view : σ → ClassName → Option Bytes) (c : ClassName) (bytes : Bytes) : Prop :=
  ∃ earlier ∈ history, earlier.caching = true ∧ ∃ c', key c = key c' ∧ earlier.Made view c' bytes

theorem MadeEarlier.concat (h : MadeEarlier history key view c bytes) (step : BatchStep σ φ) :
    MadeEarlier (history ++ [step]) key view c bytes := by
  obtain ⟨earlier, hearlier, hmade⟩ := h
  exact ⟨earlier, List.mem_append_left _ hearlier, hmade⟩

/-- What a class has after a success. -/
structure Sourced (history : List (BatchStep σ φ)) (key : ClassName → κ)
    (view : σ → ClassName → Option Bytes) (step : BatchStep σ φ) (c : ClassName)
    (bytes : Bytes) : Prop where
  has : view step.out.state c = some bytes
  source : step.Made view c bytes ∨
    step.out.outcome? c = some .redefined ∧ step.caching = true ∧
      MadeEarlier history key view c bytes

/-! ## One batch -/

theorem activeCache_eq_some_iff {caching : Bool} {active : ClassCache φ} :
    (Instrumenter.mk (some cache) caching).activeCache = some active ↔
      caching = true ∧ cache = active := by
  cases caching with
  | false => exact ⟨nofun, nofun⟩
  | true => exact ⟨fun h => ⟨rfl, Option.some.inj h⟩, fun h => congrArg some h.2⟩

/-- An entry that is found after entries were written was found before, or is one of them. -/
theorem read_stashAll_cases (hcache : cache.Keyed key) {caching : Bool}
    {entries : List (ClassName × Bytes)}
    (h : cache.read (stashAll ⟨some cache, caching⟩ entries store) c = .ok (some bytes)) :
    cache.read store c = .ok (some bytes) ∨
      caching = true ∧ ∃ e ∈ entries, key c = key e.1 ∧ bytes = e.2 := by
  induction entries generalizing store with
  | nil => exact .inl h
  | cons e entries ih =>
    rcases ih h with hbefore | ⟨hcaching, e', he', hentry⟩
    · cases caching with
      | false => exact .inl hbefore
      | true =>
        exact (hcache.of_read_write hbefore).imp_right
          fun hentry => ⟨rfl, e, List.mem_cons_self, hentry⟩
    · exact .inr ⟨hcaching, e', List.mem_cons_of_mem e he', hentry⟩

/-- A batch that says anything of a class has switched the notification on. -/
theorem setLoadHook_of_outcome? {outcome : ClassOutcome}
    (h : (inst.instrument vm ts state store).outcome? c = some outcome) :
    (vm.setLoadHook state true).1 = .ok () := by
  have hcourse := course_instrument inst vm ts state store
  generalize inst.instrument vm ts state store = out at h hcourse
  cases hcourse with
  | notLoaded t => cases h
  | empty hts => cases h
  | refused e s henable => cases h
  | changed s hloaded hts henable => rw [henable]

/-- A class that was loaded again with success has what its transforms made of its bytes, in the
memory that came with the load. -/
theorem made_of_reloaded {step : BatchStep σ φ} (hvm : step.vm.Hosts view plan listening)
    (hplan : (plan c).Single c) (henable : (step.vm.setLoadHook step.before true).1 = .ok ())
    (hstep : Reloaded inst view plan step.transforms step.before store step.out)
    (hc : c ∈ batchClasses step.transforms)
    (houtcome : step.out.outcome? c = some .retransformed) :
    ∃ bytes, view step.out.state c = some bytes ∧ step.Made view c bytes := by
  have hown := (hstep.outcome c hc).symm.trans houtcome
  have hfollows := hvm.loads _ c (hvm.enables step.before _ (Prod.ext henable rfl))
  rcases Bridge.own_of_single (b := ownBridge step.transforms c) hplan (view step.before c) with
    ⟨-, reason, hfailed⟩ | ⟨allocate, resume, new, hload, hnew, hbytes⟩
  · rw [hfailed] at hown
    cases hown
  · rw [hload] at hfollows
    obtain ⟨answered, hanswered⟩ := hfollows.exists_of_load
    exact ⟨new, (hstep.bytes c hc).trans hbytes, hc, houtcome, allocate, ⟨_, answered, hanswered⟩,
      hnew⟩

/-- If all entries that a batch finds were made earlier, so were all that are found after it, and
a success has its bytes from there or made them. -/
theorem sourced_run (hcache : cache.Keyed key) {call : BatchCall σ} (hvm : call.vm.LoadsOnce view)
    (h : ∀ c bytes, cache.read store c = .ok (some bytes) →
      MadeEarlier history key view c bytes)
    (state : σ) {step : BatchStep σ φ} (hstep : step = call.run cache state store) :
    (∀ c bytes, cache.read step.out.store c = .ok (some bytes) →
      MadeEarlier (history ++ [step]) key view c bytes) ∧
    ∀ r, step.out.result = .ok r → ∀ c ∈ batchClasses step.transforms,
      ∃ bytes, Sourced history key view step c bytes := by
  obtain ⟨plan, listening, hhosts, hplan⟩ := hvm
  have heffect : Effect ⟨some cache, step.caching⟩ view plan step.transforms step.before store
      step.out := by
    subst hstep
    exact effect_instrument hhosts _ call.transforms state store
  have hmade (hout : Reloaded ⟨some cache, step.caching⟩ view plan step.transforms step.before
      store step.out) {c : ClassName} (hc : c ∈ batchClasses step.transforms)
      (houtcome : step.out.outcome? c = some .retransformed) :
      ∃ bytes, view step.out.state c = some bytes ∧ step.Made view c bytes := by
    subst hstep
    exact made_of_reloaded hhosts (hplan c) (setLoadHook_of_outcome? houtcome) hout hc houtcome
  cases heffect with
  | kept hview hstore houtcome hok =>
    refine ⟨fun c bytes hread => ?_, fun r hr c hc => ?_⟩
    · exact (h c bytes (hstore ▸ hread)).concat _
    · exact absurd (hok r hr) (ne_nil_of_mem_batchClasses hc)
  | redefined entries hcached hview hstore hresult =>
    refine ⟨fun c bytes hread => (h c bytes (hstore ▸ hread)).concat _, fun r hr c hc => ?_⟩
    obtain ⟨hnames, active, hactive, hread⟩ := hcached
    obtain ⟨hcaching, rfl⟩ := activeCache_eq_some_iff.mp hactive
    obtain ⟨e, he, rfl⟩ := List.mem_map.mp (hnames ▸ hc)
    refine ⟨e.2, ⟨?_, .inr ⟨?_, hcaching, h e.1 e.2 (hread e he)⟩⟩⟩
    · rw [hview]
      exact bytesWith_of_mem (hnames ▸ nodup_batchClasses step.transforms) he
    · simp only [Outcome.outcome?, hresult, BatchReport.outcome?]
      exact lookup_map_const _ hc
  | reloaded hout =>
    refine ⟨fun c bytes hread => ?_, fun r hr c hc => ?_⟩
    · rw [hout.store_eq] at hread
      rcases read_stashAll_cases hcache hread with hbefore | ⟨hcaching, e, he, hkey, rfl⟩
      · exact (h c bytes hbefore).concat _
      · obtain ⟨hclass, houtcome, hentry⟩ := hout.of_mem_entries he
        obtain ⟨bytes, hbytes, hmade⟩ := hmade hout hclass houtcome
        obtain rfl : bytes = e.2 := Option.some.inj (hbytes.symm.trans hentry)
        exact ⟨_, List.mem_append_right history List.mem_cons_self, hcaching, e.1, hkey, hmade⟩
    · have houtcome := (hout.outcome c hc).trans (congrArg some (hout.success r hr c hc))
      obtain ⟨bytes, hbytes, hmade⟩ := hmade hout hc houtcome
      exact ⟨bytes, hbytes, .inl hmade⟩

/-! ## All batches -/

theorem sourced_instrumentInTurn_of_made (history : List (BatchStep σ φ)) (hcache : cache.Keyed key)
    {calls : List (BatchCall σ)} (hvm : ∀ call ∈ calls, call.vm.LoadsOnce view)
    (h : ∀ c bytes, cache.read store c = .ok (some bytes) →
      MadeEarlier history key view c bytes) :
    ∀ front step back, instrumentInTurn cache state store calls = front ++ step :: back →
      ∀ r, step.out.result = .ok r → ∀ c ∈ batchClasses step.transforms,
        ∃ bytes, Sourced (history ++ front) key view step c bytes := by
  induction calls generalizing state store history with
  | nil =>
    intro front step back hsplit
    cases front <;> cases hsplit
  | cons call calls ih =>
    intro front step back hsplit
    rw [instrumentInTurn] at hsplit
    obtain ⟨hentries, hsuccess⟩ := sourced_run hcache (hvm call List.mem_cons_self) h state rfl
    cases front with
    | nil =>
      obtain ⟨rfl, -⟩ := List.cons.inj hsplit
      rw [List.append_nil]
      exact hsuccess
    | cons first front =>
      rw [List.cons_append] at hsplit
      obtain ⟨rfl, htail⟩ := List.cons.inj hsplit
      have hrest := ih _ (fun call' h' => hvm call' (List.mem_cons_of_mem call h')) hentries
        front step back htail
      rw [List.append_assoc] at hrest
      exact hrest

/-- After a success, each of its classes has what the batch made of the bytes it was loaded with,
or what an earlier batch with a cache made for a class of the same file name. -/
theorem sourced_instrumentInTurn {calls : List (BatchCall σ)}
    (hvm : ∀ call ∈ calls, call.vm.LoadsOnce view)
    (hempty : ∀ c bytes, (Cache.inDirectory root).read files c ≠ .ok (some bytes)) :
    ∀ front step back,
      instrumentInTurn (Cache.inDirectory root) state files calls = front ++ step :: back →
      ∀ r, step.out.result = .ok r → ∀ c ∈ batchClasses step.transforms,
        ∃ bytes, Sourced front Cache.entryName view step c bytes :=
  sourced_instrumentInTurn_of_made [] (Cache.keyed_inDirectory root) hvm
    fun c bytes hread => absurd hread (hempty c bytes)

/-! ## Batches that agree -/

/-- After each success of a run its classes have what its own transforms make of bytes they were
loaded with. -/
def AppliesOwn {σ φ : Type} (view : σ → ClassName → Option Bytes)
    (steps : List (BatchStep σ φ)) : Prop :=
  ∀ front step back, steps = front ++ step :: back → ∀ r, step.out.result = .ok r →
    ∀ c ∈ batchClasses step.transforms, ∃ bytes, view step.out.state c = some bytes ∧
      ∃ loaded ∈ front ++ [step], ∃ allocate, loaded.LoadsWith c allocate ∧
        transformClass c (step.transforms.filter fun t => t.className = c) allocate
          ((view loaded.before c).getD []) = .ok bytes

theorem mem_calls_of_mem_instrumentInTurn {calls : List (BatchCall σ)}
    {step : BatchStep σ φ} (h : step ∈ instrumentInTurn cache state store calls) :
    step.toBatchCall ∈ calls := by
  induction calls generalizing state store with
  | nil => cases h
  | cons call calls ih =>
    rw [instrumentInTurn] at h
    rcases List.mem_cons.mp h with rfl | h
    · exact List.mem_cons_self
    · exact List.mem_cons_of_mem call (ih h)

/-- Every success applies its own transforms, if all batches with a cache have the same transforms
for classes that share an entry. -/
theorem appliesOwn_instrumentInTurn (hcache : cache.Keyed key) {calls : List (BatchCall σ)}
    (hvm : ∀ call ∈ calls, call.vm.LoadsOnce view)
    (hempty : ∀ c bytes, cache.read store c ≠ .ok (some bytes))
    (hagree : ∀ call ∈ calls, ∀ call' ∈ calls, call.caching = true → call'.caching = true →
      ∀ c ∈ batchClasses call.transforms, ∀ c' ∈ batchClasses call'.transforms, key c = key c' →
        c = c' ∧ (call.transforms.filter fun t => t.className = c) =
          call'.transforms.filter fun t => t.className = c) :
    AppliesOwn view (instrumentInTurn cache state store calls) := by
  intro front step back hsplit r hr c hc
  obtain ⟨bytes, hhas, hsource⟩ := sourced_instrumentInTurn_of_made [] hcache hvm
    (fun c bytes hread => absurd hread (hempty c bytes)) front step back hsplit r hr c hc
  refine ⟨bytes, hhas, ?_⟩
  rcases hsource with hmade | ⟨-, hcaching, earlier, hearlier, hcaching', c', hkey, hmade⟩
  · exact ⟨step, List.mem_append_right front List.mem_cons_self, hmade.transformed⟩
  · have hmem : ∀ s ∈ front ++ step :: back, s.toBatchCall ∈ calls :=
      fun s hs => mem_calls_of_mem_instrumentInTurn (hsplit ▸ hs)
    have hstep := hmem step (List.mem_append_right front List.mem_cons_self)
    have hbefore := hmem earlier (List.mem_append_left _ hearlier)
    obtain ⟨rfl, htransforms⟩ :=
      hagree _ hstep _ hbefore hcaching hcaching' c hc c' hmade.target hkey
    exact ⟨earlier, List.mem_append_left _ hearlier, htransforms ▸ hmade.transformed⟩

end Provenance

/-! ## An entry that is used for other transforms -/

namespace Renamed

open Instrumenter

/-- A batch that calls one hook, on the machine with two classes. -/
def firstBatch : Outcome ScriptedVm FileTree BatchReport InstrumentError :=
  instrument ⟨some (Cache.inDirectory ⟨"/cache"⟩), true⟩
    (ScriptedVm.following ScriptedVm.quiet Allocator.heap) [.hookRun "first"]
    ScriptedVm.twoLoaded emptyDirectory

/-- A batch that is to call another one, after it. -/
def secondBatch : Outcome ScriptedVm FileTree BatchReport InstrumentError :=
  instrument ⟨some (Cache.inDirectory ⟨"/cache"⟩), true⟩
    (ScriptedVm.following ScriptedVm.quiet Allocator.heap) [.hookRun "second"]
    firstBatch.state firstBatch.store

/-- Calls a hook, with the cache. -/
def call (hook : String) : BatchCall ScriptedVm where
  vm := ScriptedVm.following ScriptedVm.quiet Allocator.heap
  caching := true
  transforms := [.hookRun hook]

/-- The run of the two. -/
def run : List (BatchStep ScriptedVm FileTree) :=
  instrumentInTurn (Cache.inDirectory ⟨"/cache"⟩) ScriptedVm.twoLoaded emptyDirectory
    [call "first", call "second"]

theorem run_eq : run = [⟨call "first", ScriptedVm.twoLoaded, firstBatch⟩,
    ⟨call "second", firstBatch.state, secondBatch⟩] := rfl

set_option maxRecDepth 20000 in
/-- The second batch takes the entry of the first one. -/
theorem result_secondBatch : secondBatch.result = .ok ⟨[(⟨"A"⟩, .redefined)]⟩ ∧
    secondBatch.state.bytesOf? ⟨"A"⟩ = firstBatch.state.bytesOf? ⟨"A"⟩ := by
  decide +kernel

theorem mem_batchClasses_hookRun (hook : String) : ⟨"A"⟩ ∈ batchClasses [.hookRun hook] :=
  mem_batchClasses.mpr ⟨_, List.mem_cons_self, rfl⟩

theorem sourced_instrumentInTurn_renamed : ∃ first second bytes, run = [first, second] ∧
    second.out.result = .ok ⟨[(⟨"A"⟩, .redefined)]⟩ ∧
    Sourced [first] Cache.entryName ScriptedVm.bytesOf? second ⟨"A"⟩ bytes := by
  have hvm : ∀ c ∈ [call "first", call "second"], c.vm.LoadsOnce ScriptedVm.bytesOf? := by
    intro c hc
    simp only [List.mem_cons, List.not_mem_nil, or_false] at hc
    rcases hc with rfl | rfl <;>
      exact ScriptedVm.loadsOnce_following (by simp [ScriptedVm.quiet]) Allocator.heap
  obtain ⟨bytes, hsourced⟩ := sourced_instrumentInTurn hvm (read_emptyDirectory ⟨"/cache"⟩)
    [_] _ [] run_eq _ result_secondBatch.1 _ (mem_batchClasses_hookRun "second")
  exact ⟨_, _, bytes, run_eq, result_secondBatch.1, hsourced⟩

/-- The machine of the run has memory of any size whenever it loads a class. -/
theorem allocate_of_loadsWith {hook : String} {before : ScriptedVm}
    {out : Outcome ScriptedVm FileTree BatchReport InstrumentError} {c : ClassName}
    {allocate : Allocator}
    (h : (BatchStep.mk (call hook) before out).LoadsWith c allocate) :
    allocate = Allocator.heap := by
  obtain ⟨event, resume, hload⟩ := h
  cases hload
  rfl

theorem exists_hookRun (hook : String) {bytes : Bytes} {d : DexFile}
    (hread : DexFile.decode bytes ⟨"A"⟩ = .ok d)
    (himage : (Transform.applyAll [.hookRun hook] d).image.isOk = true) :
    ∃ new, transformClass ⟨"A"⟩ [.hookRun hook] Allocator.heap bytes = .ok new ∧
      DexFile.decode new ⟨"A"⟩ = .ok (Transform.applyAll [.hookRun hook] d) := by
  refine exists_transformClass_of_decode hread (fun t ht => ?_) (by decide) himage
  obtain rfl := List.mem_singleton.mp ht
  exact ⟨(by decide : "Hooks" ≠ ""), nofun⟩

theorem bytesOf?_firstBatch {once : Bytes}
    (honce : transformClass ⟨"A"⟩ [.hookRun "first"] Allocator.heap
      (Container.image DexFile.unsortedContainer.bytes) = .ok once) :
    firstBatch.state.bytesOf? ⟨"A"⟩ = some once := by
  have hreloaded : Reloaded (new (some (Cache.inDirectory ⟨"/cache"⟩))) ScriptedVm.bytesOf?
      (ScriptedVm.planOf Allocator.heap ScriptedVm.quiet) [.hookRun "first"] ScriptedVm.twoLoaded
      emptyDirectory firstBatch := reloaded_of_missing
    (ScriptedVm.hosts_following ScriptedVm.quiet Allocator.heap) (by decide +kernel)
    (List.cons_ne_nil _ _) rfl (not_cached_of_empty (List.cons_ne_nil _ _)
      (read_emptyDirectory ⟨"/cache"⟩))
  exact hreloaded.bytes_of_load (mem_batchClasses_hookRun "first")
    (ScriptedVm.planOf_of_lookup rfl) List.lookup_cons_self honce

/-- If the class has after the second batch what the first one made of it, then it has nothing
that the transforms of the second batch make of bytes it was loaded with. -/
theorem not_own_of_same {start : ScriptedVm}
    {first second : Outcome ScriptedVm FileTree BatchReport InstrumentError}
    {report : BatchReport} {bytes once : Bytes} (hstart : start.bytesOf? ⟨"A"⟩ = some bytes)
    (hread : DexFile.decode bytes ⟨"A"⟩ = .ok DexFile.unsorted)
    (hfirst : first.state.bytesOf? ⟨"A"⟩ = some once)
    (hreadOnce : DexFile.decode once ⟨"A"⟩ =
      .ok (Transform.applyAll [.hookRun "first"] DexFile.unsorted))
    (hresult : second.result = .ok report)
    (hsame : second.state.bytesOf? ⟨"A"⟩ = first.state.bytesOf? ⟨"A"⟩) :
    ¬ AppliesOwn ScriptedVm.bytesOf?
      [⟨call "first", start, first⟩, ⟨call "second", first.state, second⟩] := by
  intro hclaim
  obtain ⟨other, hother, hreadOther⟩ := exists_hookRun "second" hread (by decide +kernel)
  obtain ⟨both, hboth, hreadBoth⟩ :=
    exists_hookRun "second" hreadOnce (by decide +kernel)
  obtain ⟨now, hnow, loaded, hloaded, allocate, hload, hown⟩ :=
    hclaim [_] _ [] rfl report hresult _ (mem_batchClasses_hookRun "second")
  obtain rfl : once = now := Option.some.inj (hfirst.symm.trans (hsame.symm.trans hnow))
  have htransforms : ([.hookRun "second"] : List Transform).filter
      (fun t => t.className = ⟨"A"⟩) = [.hookRun "second"] := by decide +kernel
  simp only [call, htransforms] at hown
  rcases List.mem_cons.mp hloaded with rfl | hloaded
  · -- the bytes that were there at first
    obtain rfl := allocate_of_loadsWith hload
    simp only [hstart, Option.getD_some] at hown
    obtain rfl := Except.ok.inj (hother.symm.trans hown)
    exact absurd (Except.ok.inj (hreadOnce.symm.trans hreadOther)) (by decide +kernel)
  · -- the bytes that the first batch has made
    obtain rfl := List.mem_singleton.mp hloaded
    obtain rfl := allocate_of_loadsWith hload
    simp only [hfirst, Option.getD_some] at hown
    obtain rfl := Except.ok.inj (hboth.symm.trans hown)
    exact absurd (Except.ok.inj (hreadOnce.symm.trans hreadBoth)) (by decide +kernel)

/-- The second batch succeeds, and leaves its class with bytes that its own transforms make of
nothing the class was loaded with. -/
theorem not_own_transforms_run : ¬ AppliesOwn ScriptedVm.bytesOf? run := by
  have hread : DexFile.decode (Container.image DexFile.unsortedContainer.bytes) ⟨"A"⟩ =
      .ok DexFile.unsorted := by
    rw [DexFile.decode, DexFile.parse_unsortedContainer]
    decide +kernel
  obtain ⟨once, honce, hreadOnce⟩ := exists_hookRun "first" hread (by decide +kernel)
  rw [run_eq]
  exact not_own_of_same List.lookup_cons_self hread (bytesOf?_firstBatch honce) hreadOnce
    result_secondBatch.1 result_secondBatch.2

end Renamed

end DexWeave
