/-
  DexWeave/Proofs/AttachReport.lean --- a failure is told once.

  WHAT THIS FILE IS FOR.  An attachment that fails tells the reporter once: of the classes that
  failed, if it came to its classes, and otherwise of the error that it returns.  One that does
  not fail tells nothing.  The batch tells of classes and the attachment of all other errors,
  so what is to be shown is that no failure is left to both of them or to neither.

  CACHES THAT FAIL.  An attachment reads and writes the entry of a class at most once.  So
  whatever goes wrong with a cache while an attachment uses it is what some cache, as a
  function of the files, the class and the bytes, would answer; and a directory that cannot be
  made is no cache.  The statements are about all of them.

  WHAT IS NOT SEEN.  Without a cache, or with an entry that is not read, an attachment ends as
  if caching were off; what becomes of the writings makes no difference; and where the machine
  refuses the entries, the attachment goes on as if caching were off in the state that the
  machine is left in.
-/
import DexWeave.Proofs.AttachOnce
import DexWeave.Proofs.CacheAgreement
import DexWeave.Proofs.PrototypeDescriptor

set_option autoImplicit false

namespace DexWeave

/-- The machine that is in a given state as soon as the notification is on. -/
def Vm.enablingInto {σ : Type} (vm : Vm σ) (s : σ) : Vm σ :=
  { vm with setLoadHook := fun state enabled =>
      if enabled then (.ok (), s) else vm.setLoadHook state enabled }

/-! ## Batches -/

namespace Instrumenter

variable {σ φ ψ : Type} {inst : Instrumenter φ} {inst' : Instrumenter ψ} {vm vm' : Vm σ}
  {ts : List Transform} {state s s' : σ} {store : φ} {store' : ψ}
  {entries : List (ClassName × Bytes)}

/-- What a batch tells the reporter, by its result: of classes, if some of them failed. -/
inductive Tells (ts : List Transform) :
    Except InstrumentError BatchReport → List Notice → Prop where
  | success (r : BatchReport) : Tells ts (.ok r) []
  | failures (r : BatchReport) (hfailures : r.failures ≠ [])
    (hnames : r.outcomes.map Prod.fst = batchClasses ts) :
    Tells ts (.error (.retransformFailed r)) [.instrumentationFailures r.failures]
  | givenUp (e : InstrumentError) (he : ∀ r, e ≠ .retransformFailed r) : Tells ts (.error e) []

theorem tells_conclude {done : BatchReport × σ × φ}
    (hnames : done.1.outcomes.map Prod.fst = batchClasses ts) :
    Tells ts (conclude vm done).result (conclude vm done).notices := by
  unfold conclude
  split
  · exact .success done.1
  · rename_i hfailures
    exact .failures done.1 hfailures hnames

theorem tells_instrument (inst : Instrumenter φ) (vm : Vm σ) (ts : List Transform) (state : σ)
    (store : φ) :
    Tells ts (inst.instrument vm ts state store).result
      (inst.instrument vm ts state store).notices := by
  have hcourse := course_instrument inst vm ts state store
  generalize inst.instrument vm ts state store = out at hcourse ⊢
  cases hcourse with
  | notLoaded t => exact .givenUp _ fun r h => by cases h
  | empty hts => exact .success _
  | refused e s henable => exact .givenUp _ fun r h => by cases h
  | changed s hloaded hts henable =>
    exact tells_conclude ((map_fst_process inst vm _ s store).trans
      (Bridge.map_name_ofTransforms ts))

/-! ## Batches that end alike -/

theorem not_cached_of_inactive (h : inst.activeCache = none) (names : List ClassName) :
    ¬ inst.Cached store names entries := by
  rintro ⟨-, cache, hcache, -⟩
  rw [h] at hcache
  cases hcache

theorem ending_conclude_congr {done : BatchReport × σ × φ} {done' : BatchReport × σ × ψ}
    (hreport : done.1 = done'.1)
    (hoff : (vm.setLoadHook done.2.1 false).2 = (vm'.setLoadHook done'.2.1 false).2) :
    (conclude vm done).ending = (conclude vm' done').ending := by
  unfold conclude
  rw [hreport, hoff]
  split <;> rfl

theorem retransformAll_enablingInto (inst : Instrumenter φ) (vm : Vm σ) (bs : List Bridge)
    (state : σ) (store : φ) :
    inst.retransformAll (vm.enablingInto s) bs state store =
      inst.retransformAll vm bs state store :=
  retransformAll_setLoadHook inst vm _ bs state store

/-- Unless a batch comes to its classes, it ends in the same way with any cache. -/
theorem ending_instrument_or_enabled (inst : Instrumenter φ) (inst' : Instrumenter ψ) (vm : Vm σ)
    (ts : List Transform) (state : σ) (store : φ) (store' : ψ) :
    (inst.instrument vm ts state store).ending = (inst'.instrument vm ts state store').ending ∨
    ∃ s, (∀ t ∈ ts, vm.isLoaded state t.className = true) ∧ ts ≠ [] ∧
      vm.setLoadHook state true = (.ok (), s) := by
  cases hfind : ts.find? fun t => !vm.isLoaded state t.className with
  | some t =>
    rw [instrument, instrument, hfind]
    exact .inl rfl
  | none =>
    have hloaded : ∀ t ∈ ts, vm.isLoaded state t.className = true :=
      fun t ht => by simpa using List.find?_eq_none.mp hfind t ht
    by_cases hts : ts = []
    · subst hts
      exact .inl rfl
    · rcases henable : vm.setLoadHook state true with ⟨e | ⟨⟨⟩⟩, s⟩
      · rw [instrument_of_refused inst vm hloaded hts henable,
          instrument_of_refused inst' vm hloaded hts henable]
        exact .inl rfl
      · exact .inr ⟨s, hloaded, hts, rfl⟩

/-- Where the machine refuses the entries of a batch, the batch goes on as without a cache in the
state that the machine is left in. -/
theorem ending_instrument_of_refused (hcached : inst.Cached store (batchClasses ts) entries)
    (henable : vm.setLoadHook state true = (.ok (), s)) {e : VmError}
    (hredefine : vm.redefine s entries = (.error e, s')) (hinactive : inst'.activeCache = none) :
    (inst.instrument vm ts state store).ending =
      (inst'.instrument (vm.enablingInto s') ts state store').ending := by
  cases hfind : ts.find? fun t => !vm.isLoaded state t.className with
  | some t =>
    have hfind' : (ts.find? fun t => !(vm.enablingInto s').isLoaded state t.className) = some t :=
      hfind
    rw [instrument, instrument, hfind, hfind']
    rfl
  | none =>
    have hloaded : ∀ t ∈ ts, vm.isLoaded state t.className = true :=
      fun t ht => by simpa using List.find?_eq_none.mp hfind t ht
    by_cases hts : ts = []
    · subst hts
      rfl
    have henable' : (vm.enablingInto s').setLoadHook state true = (.ok (), s') := rfl
    have hnames : (Bridge.ofTransforms ts).map Bridge.name = batchClasses ts :=
      Bridge.map_name_ofTransforms ts
    have hrefused := Cached.redefineFromCache_eq (hnames.symm ▸ hcached) vm s
    rw [hredefine] at hrefused
    have hmissing : inst'.redefineFromCache (vm.enablingInto s') (Bridge.ofTransforms ts) s'
        store' = (none, s') :=
      redefineFromCache_of_missing _ s' fun _ => not_cached_of_inactive hinactive _
    obtain ⟨houtcomes, hstate⟩ :=
      retransformAll_eq_cacheless inst vm (Bridge.ofTransforms ts) s' store
    obtain ⟨houtcomes', hstate'⟩ :=
      retransformAll_eq_cacheless inst' vm (Bridge.ofTransforms ts) s' store'
    rw [instrument_of_enabled inst vm hloaded hts henable,
      instrument_of_enabled inst' (vm.enablingInto s') hloaded hts henable',
      process_of_none hrefused, process_of_none hmissing, retransformAll_enablingInto]
    refine ending_conclude_congr ?_ ?_
    · exact congrArg BatchReport.mk (houtcomes.trans houtcomes'.symm)
    · exact congrArg (fun last => (vm.setLoadHook last false).2) (hstate.trans hstate'.symm)

end Instrumenter

/-! ## Attachments -/

section Attach

open Instrumenter

variable {σ : Type} {vm : Vm σ} {config : AgentConfig} {payload : Bytes} {b : Breadcrumb}
  {state : σ} {files : FileTree} {mode : SwapMode}
  {opened : Option (ClassCache FileTree) × FileTree}

/-- The configuration with caching off. -/
def AgentConfig.uncached (config : AgentConfig) : AgentConfig :=
  { config with caching := some false }

/-- The end of an attachment, but for the files it leaves. -/
def Attachment.ending (a : Attachment σ) :
    Except AttachError AttachOutcome × List Notice × Breadcrumb × σ :=
  (a.result, a.notices, a.breadcrumb, a.state)

/-- An attachment that is given a cache, or none, instead of the one of its configuration. -/
def attachWith (opened : Option (ClassCache FileTree) × FileTree) (vm : Vm σ)
    (config : AgentConfig) (payload : Bytes) (b : Breadcrumb) (state : σ) (files : FileTree) :
    Attachment σ :=
  match b.recorded with
  | some _ => attach vm config payload b state files
  | none =>
    concludeAttach payload
      ((Instrumenter.new opened.1).instrument vm config.mode.transforms state opened.2)

theorem attachWith_of_recorded {recorded : PayloadHash} (h : b.recorded = some recorded) :
    attachWith opened vm config payload b state files =
      attach vm config payload b state files := by
  unfold attachWith
  rw [h]

theorem attachWith_openCache (vm : Vm σ) (config : AgentConfig) (payload : Bytes) (b : Breadcrumb)
    (state : σ) (files : FileTree) :
    attachWith (config.openCache (.ofBytes payload) files) vm config payload b state files =
      attach vm config payload b state files := by
  cases hrecorded : b.recorded with
  | some recorded => exact attachWith_of_recorded hrecorded
  | none =>
    obtain rfl : b = .empty := congrArg Breadcrumb.mk hrecorded
    rfl

/-! ## What is told -/

/-- What the reporter is told of an attachment: nothing if it does not fail; otherwise one thing,
the classes that failed, in the order of the batch, or the text of the error. -/
structure Attachment.ToldOnce (mode : SwapMode) (a : Attachment σ) : Prop where
  success : ∀ o, a.result = .ok o → a.notices = []
  classes : ∀ r, a.result = .error (.instrumentation (.retransformFailed r)) →
    ∃ told, a.notices = [.instrumentationFailures told] ∧ told ≠ [] ∧
      (told.map fun f => (f.name, ClassOutcome.failed f.reason)) =
        (r.outcomes.filter fun entry => entry.2.isFailed) ∧
      r.outcomes.map Prod.fst = batchClasses mode.transforms
  abandoned : ∀ e, a.result = .error e →
    (∀ r, e ≠ .instrumentation (.retransformFailed r)) →
    a.notices = [.unhandledFailure e.message]

theorem toldOnce_concludeAttach {batch : Outcome σ FileTree BatchReport InstrumentError}
    (h : Tells mode.transforms batch.result batch.notices) :
    (concludeAttach payload batch).ToldOnce mode := by
  obtain ⟨result, notices, state, store⟩ := batch
  cases h with
  | success r => exact ⟨fun _ _ => rfl, nofun, nofun⟩
  | failures r hfailures hnames =>
    refine ⟨nofun, fun r' hr => ?_, fun e he hne => ?_⟩
    · cases hr
      exact ⟨r.failures, rfl, hfailures, r.map_failures, hnames⟩
    · cases he
      exact absurd rfl (hne r)
  | givenUp e he =>
    refine ⟨nofun, fun r hr => ?_, fun e' he' _ => ?_⟩
    · cases hr
      exact absurd rfl (he r)
    · cases he'
      cases e with
      | classNotFound name | eventSetup e => rfl
      | retransformFailed r => exact absurd rfl (he r)

theorem toldOnce_attach_of_recorded {recorded : PayloadHash} (h : b.recorded = some recorded) :
    (attach vm config payload b state files).ToldOnce mode := by
  unfold attach Breadcrumb.check
  rw [h]
  by_cases hsame : recorded = .ofBytes payload
  · simp only [if_pos hsame]
    exact ⟨fun _ _ => rfl, nofun, nofun⟩
  · simp only [if_neg hsame]
    refine ⟨nofun, nofun, fun e he _ => ?_⟩
    cases he
    rfl

theorem toldOnce_attachWith (opened : Option (ClassCache FileTree) × FileTree) (vm : Vm σ)
    (config : AgentConfig) (payload : Bytes) (b : Breadcrumb) (state : σ) (files : FileTree) :
    (attachWith opened vm config payload b state files).ToldOnce config.mode := by
  cases hrecorded : b.recorded with
  | some recorded =>
    rw [attachWith_of_recorded hrecorded]
    exact toldOnce_attach_of_recorded hrecorded
  | none =>
    unfold attachWith
    rw [hrecorded]
    exact toldOnce_concludeAttach (tells_instrument _ vm config.mode.transforms state opened.2)

/-! ## What is not seen -/

theorem ending_concludeAttach_congr {batch batch' : Outcome σ FileTree BatchReport InstrumentError}
    (h : batch.ending = batch'.ending) :
    (concludeAttach payload batch).ending = (concludeAttach payload batch').ending := by
  obtain ⟨result, notices, state, store⟩ := batch
  obtain ⟨result', notices', state', store'⟩ := batch'
  obtain ⟨rfl, rfl, rfl⟩ : result = result' ∧ notices = notices' ∧ state = state' := by
    simpa [Outcome.ending] using h
  cases result <;> rfl

/-- With a record, neither the machine nor the configuration makes a difference. -/
theorem ending_attach_of_recorded {recorded : PayloadHash} (h : b.recorded = some recorded)
    (vm vm' : Vm σ) (config config' : AgentConfig) (payload : Bytes) (state : σ)
    (files : FileTree) :
    (attach vm config payload b state files).ending =
      (attach vm' config' payload b state files).ending := by
  obtain ⟨notices, hanswer⟩ := attach_of_recorded payload h
  rw [hanswer, hanswer]

/-- An attachment ends in the same way with any cache in which the same entries are found. -/
theorem ending_attachWith_congr {opened opened' : Option (ClassCache FileTree) × FileTree}
    (h : ∀ entries,
      (Instrumenter.new opened.1).Cached opened.2 (batchClasses config.mode.transforms) entries ↔
      (Instrumenter.new opened'.1).Cached opened'.2 (batchClasses config.mode.transforms)
        entries) :
    (attachWith opened vm config payload b state files).ending =
      (attachWith opened' vm config payload b state files).ending := by
  unfold attachWith
  cases b.recorded with
  | some recorded => rfl
  | none => exact ending_concludeAttach_congr (ending_instrument_congr vm state h)

/-- With caching off, an attachment ends as one that is given no cache. -/
theorem ending_attach_uncached (store : FileTree) :
    (attach vm config.uncached payload b state files).ending =
      (attachWith (none, store) vm config payload b state files).ending := by
  cases hrecorded : b.recorded with
  | some recorded =>
    rw [attachWith_of_recorded hrecorded]
    exact ending_attach_of_recorded hrecorded vm vm config.uncached config payload state files
  | none =>
    obtain rfl : b = .empty := congrArg Breadcrumb.mk hrecorded
    have hnone : ∀ store' entries, ¬ (Instrumenter.new none).Cached (store' : FileTree)
        (batchClasses config.mode.transforms) entries :=
      fun _ _ => not_cached_of_inactive rfl _
    refine ending_concludeAttach_congr (ending_instrument_congr vm state fun entries => ?_)
    exact iff_of_false (hnone files entries) (hnone store entries)

theorem ending_attachWith_of_unread
    (h : ∀ cache, opened.1 = some cache → ∃ c ∈ batchClasses config.mode.transforms,
      ∀ bytes, cache.read opened.2 c ≠ .ok (some bytes)) :
    (attachWith opened vm config payload b state files).ending =
      (attach vm config.uncached payload b state files).ending := by
  rw [ending_attach_uncached opened.2]
  refine ending_attachWith_congr fun entries => iff_of_false ?_ (not_cached_of_inactive rfl _)
  rintro ⟨hnames, cache, hcache, hread⟩
  obtain ⟨cache', hopened⟩ : ∃ cache', opened.1 = some cache' := by
    cases hopened : opened.1 with
    | none =>
      rw [hopened] at hcache
      cases hcache
    | some cache' => exact ⟨cache', rfl⟩
  rw [hopened] at hcache
  obtain rfl := Option.some.inj hcache
  obtain ⟨c, hc, hunread⟩ := h cache' hopened
  obtain ⟨e, he, rfl⟩ := List.mem_map.mp (hnames ▸ hc)
  exact hunread e.2 (hread e he)

/-- What an attachment comes to if the entries of all its classes are read. -/
inductive Attachment.Offers (vm : Vm σ) (config : AgentConfig) (payload : Bytes) (b : Breadcrumb)
    (state : σ) (files : FileTree) (entries : List (ClassName × Bytes)) (a : Attachment σ) :
    Prop where
  /-- The machine is not asked to take them: it ends as with caching off. -/
  | unasked (h : a.ending = (attach vm config.uncached payload b state files).ending)
  /-- The machine takes them: nothing fails, and nothing is told. -/
  | taken (s s' : σ) (henable : vm.setLoadHook state true = (.ok (), s))
    (hredefine : vm.redefine s entries = (.ok (), s'))
    (hresult : a.result = .ok (.instrumented
      ⟨(batchClasses config.mode.transforms).map fun c => (c, .redefined)⟩))
    (hnotices : a.notices = [])
  /-- The machine refuses them: it ends as with caching off in the state that the machine is left
  in. -/
  | refused (e : VmError) (s s' : σ) (henable : vm.setLoadHook state true = (.ok (), s))
    (hredefine : vm.redefine s entries = (.error e, s'))
    (h : a.ending =
      (attach (vm.enablingInto s') config.uncached payload b state files).ending)

theorem offers_attachWith {cache : ClassCache FileTree} {store : FileTree}
    {entries : List (ClassName × Bytes)}
    (hcached : (Instrumenter.new (some cache)).Cached store
      (batchClasses config.mode.transforms) entries) :
    (attachWith (some cache, store) vm config payload b state files).Offers vm config payload b
      state files entries := by
  cases hrecorded : b.recorded with
  | some recorded =>
    rw [attachWith_of_recorded hrecorded]
    exact .unasked (ending_attach_of_recorded hrecorded vm vm config config.uncached payload state
      files)
  | none =>
    obtain rfl : b = .empty := congrArg Breadcrumb.mk hrecorded
    have hwith : attachWith (some cache, store) vm config payload .empty state files =
        concludeAttach payload ((Instrumenter.new (some cache)).instrument vm
          config.mode.transforms state store) := rfl
    rcases ending_instrument_or_enabled (Instrumenter.new (some cache))
        (Instrumenter.new (none : Option (ClassCache FileTree))) vm config.mode.transforms state
        store files with hending | ⟨s, hloaded, hts, henable⟩
    · refine .unasked ?_
      rw [ending_attach_uncached files]
      exact ending_concludeAttach_congr hending
    · rcases hredefine : vm.redefine s entries with ⟨e | ⟨⟨⟩⟩, s'⟩
      · refine .refused e s s' henable hredefine ?_
        rw [ending_attach_uncached files]
        exact ending_concludeAttach_congr
          (ending_instrument_of_refused hcached henable hredefine rfl)
      · rw [hwith, instrument_of_cached hloaded hts henable hcached hredefine]
        exact .taken s s' henable hredefine rfl rfl

/-! ## Attachments and their caches -/

/-- The texts of the targets are read back, so no catalog is refused. -/
theorem ofDescriptor?_of_mode (mode : SwapMode) :
    ∀ t ∈ mode.transforms,
      Prototype.ofDescriptor? t.target.prototype.descriptor = some t.target.prototype := by
  intro t ht
  rw [Prototype.ofDescriptor?_eq_some_iff]
  refine ⟨?_, rfl⟩
  revert t
  cases mode <;> decide

/-- How an attachment tells of failures, whatever becomes of its cache. -/
structure ReportsOnce (vm : Vm σ) (config : AgentConfig) (payload : Bytes) (b : Breadcrumb)
    (state : σ) (files : FileTree) : Prop where
  /-- It is an attachment that is given the cache of its configuration. -/
  opens : attach vm config payload b state files =
    attachWith (config.openCache (.ofBytes payload) files) vm config payload b state files
  /-- With any cache, or none, a failure is told once. -/
  told : ∀ opened, (attachWith opened vm config payload b state files).ToldOnce config.mode
  /-- Without a cache, or if reading the entry of a class misses or fails, it ends as with caching
  off. -/
  unread : ∀ opened,
    (∀ cache, opened.1 = some cache → ∃ c ∈ batchClasses config.mode.transforms,
      ∀ bytes, cache.read opened.2 c ≠ .ok (some bytes)) →
    (attachWith opened vm config payload b state files).ending =
      (attach vm config.uncached payload b state files).ending
  /-- What becomes of the writing of entries makes no difference. -/
  unwritten : ∀ read write write' store,
    (attachWith (some ⟨read, write⟩, store) vm config payload b state files).ending =
      (attachWith (some ⟨read, write'⟩, store) vm config payload b state files).ending
  /-- If the entries of all classes are read, nothing fails for them, also if the machine refuses
  them. -/
  offered : ∀ cache store entries,
    (Instrumenter.new (some cache)).Cached store (batchClasses config.mode.transforms) entries →
    (attachWith (some cache, store) vm config payload b state files).Offers vm config payload b
      state files entries
  /-- The targets of the mode can be read, so nothing fails between the breadcrumb and the batch. -/
  readable : ∀ t ∈ config.mode.transforms,
    Prototype.ofDescriptor? t.target.prototype.descriptor = some t.target.prototype

/-- Every attachment tells of a failure once and of nothing else, and none fails for its cache. -/
theorem reportsOnce_attach (vm : Vm σ) (config : AgentConfig) (payload : Bytes) (b : Breadcrumb)
    (state : σ) (files : FileTree) : ReportsOnce vm config payload b state files where
  opens := (attachWith_openCache vm config payload b state files).symm
  told := fun opened => toldOnce_attachWith opened vm config payload b state files
  unread := fun _ h => ending_attachWith_of_unread h
  unwritten := by
    intro read write write' store
    refine ending_attachWith_congr fun entries => ?_
    rw [cached_new_iff, cached_new_iff]
  offered := fun _ _ _ hcached => offers_attachWith hcached
  readable := ofDescriptor?_of_mode config.mode

/-- Neither class can be read: both are told of, in one notice. -/
example :
    let vm : ScriptedVm := ⟨⟨none, none, none, []⟩, false,
      [(⟨"dalvik/system/DexPathList$Element"⟩, []), (⟨"android/app/ActivityThread"⟩, [])]⟩
    let told (notice : Notice) : List String :=
      match notice with
      | .instrumentationFailures failures => failures.map fun f => f.name.text
      | .unhandledFailure message => [message]
    let out := attach (ScriptedVm.machine Allocator.heap) (.new ⟨"/cache"⟩) [] .empty vm .empty
    out.notices.map told =
      [["android/app/ActivityThread", "dalvik/system/DexPathList$Element"]] := by
  decide +kernel

end Attach

end DexWeave
