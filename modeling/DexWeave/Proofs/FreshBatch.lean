/-
  DexWeave/Proofs/FreshBatch.lean --- machine, report and cache after a fresh batch.

  WHAT THIS FILE IS FOR.  A batch that does not use cached bytes loads its classes again,
  one after the other.  Three things are kept of each of them: the bytes the machine
  has, the outcome in the report, and the entry that is written to the cache.  They come
  of a conversation in which the class may have been loaded any number of times, and
  other classes in between.

  WHAT IS PROVED.  The three agree with the conversation, and so with each other.  The
  conversations and the writes are read off a machine and a cache with a record, on which
  a batch runs as it does without one.
-/
import DexWeave.Proofs.CacheAgreement
import DexWeave.Proofs.Conversation

set_option autoImplicit false

namespace DexWeave

/-- The entry that was to be written. -/
def CacheWrite.entry (w : CacheWrite) : ClassName × Bytes := (w.name, w.bytes)

namespace Instrumenter

section Records

variable {σ φ : Type} {inst : Instrumenter φ} {vm : Vm σ} {bs : List Bridge} {state : σ}
  {store : φ}

/-! ## Batches with a record -/

/-- Uses the cache with a record of its writes. -/
def recorded (inst : Instrumenter φ) : Instrumenter (φ × List CacheWrite) :=
  ⟨inst.cache.map ClassCache.recorded, inst.cachingEnabled⟩

theorem activeCache_recorded (inst : Instrumenter φ) :
    inst.recorded.activeCache = inst.activeCache.map ClassCache.recorded := by
  rw [activeCache, activeCache, recorded]
  cases inst.cachingEnabled <;> rfl

/-- The writes of an entry, if there is one and a cache to write it to. -/
def writesOf (inst : Instrumenter φ) (store : φ) : Option (ClassName × Bytes) → List CacheWrite
  | none => []
  | some e =>
    match inst.activeCache with
    | none => []
    | some cache => [⟨e.1, e.2, (cache.write store e.1 e.2).1⟩]

theorem map_entry_writesOf (inst : Instrumenter φ) (store : φ)
    (e : Option (ClassName × Bytes)) :
    (inst.writesOf store e).map CacheWrite.entry =
      if inst.activeCache.isSome then e.toList else [] := by
  cases e with
  | none => rw [writesOf, Option.toList_none, ite_self]; rfl
  | some e =>
    rw [writesOf]
    cases inst.activeCache <;> rfl

theorem stash_recorded (inst : Instrumenter φ) (store : φ) (writes : List CacheWrite)
    (c : ClassName) (bytes : Bytes) :
    inst.recorded.stash (store, writes) c bytes =
      (inst.stash store c bytes, writes ++ inst.writesOf store (some (c, bytes))) := by
  rw [stash, stash, activeCache_recorded, writesOf]
  cases inst.activeCache with
  | none => rw [List.append_nil]; rfl
  | some cache => rfl

/-- One class is loaded again as without a record; the conversation is recorded, and so is the
write of its entry. -/
theorem retransformOne_recorded (inst : Instrumenter φ) (vm : Vm σ) (b : Bridge) (state : σ)
    (talks : List Conversation) (store : φ) (writes : List CacheWrite) :
    inst.recorded.retransformOne vm.overheard b (state, talks) (store, writes) =
      ((inst.retransformOne vm b state store).1,
        ((inst.retransformOne vm b state store).2.1, talks ++ [b.talk vm state]),
        ((inst.retransformOne vm b state store).2.2,
          writes ++ inst.writesOf store (b.talk vm state).ownEntry)) := by
  have hrun := Loading.run_overheard talks b.name b.hook .notReached []
    (vm.retransform state b.name)
  rw [retransformOne, retransformOne, Conversation.ownEntry, b.lastAnswer_talk]
  simp only [Vm.overheard, Bridge.talk, hrun]
  rcases (vm.retransform state b.name).run b.hook .notReached with
    ⟨⟨error | ⟨⟨⟩⟩, after⟩, seen⟩
  · simp only [List.nil_append, writesOf, List.append_nil]
  · cases seen with
    | replaced image => simp only [List.nil_append, stash_recorded, BridgeOutcome.image?,
        Option.map_some]
    | notReached | failed e => simp only [List.nil_append, BridgeOutcome.image?,
        Option.map_none, writesOf, List.append_nil]

theorem redefineFromCache_recorded (inst : Instrumenter φ) (vm : Vm σ) (bs : List Bridge)
    (state : σ) (talks : List Conversation) (store : φ) (writes : List CacheWrite) :
    inst.recorded.redefineFromCache vm.overheard bs (state, talks) (store, writes) =
      ((inst.redefineFromCache vm bs state store).1,
        ((inst.redefineFromCache vm bs state store).2, talks)) := by
  rw [redefineFromCache, redefineFromCache, activeCache_recorded]
  cases inst.activeCache with
  | none => rfl
  | some cache =>
    have hentries : cachedEntries cache.recorded (store, writes) (bs.map Bridge.name) =
        cachedEntries cache store (bs.map Bridge.name) := rfl
    simp only [Option.map_some, hentries]
    cases cachedEntries cache store (bs.map Bridge.name) with
    | none => rfl
    | some entries =>
      have hcall : vm.overheard.redefine (state, talks) entries =
          ((vm.redefine state entries).1, ((vm.redefine state entries).2, talks)) := rfl
      simp only [hcall]
      rcases vm.redefine state entries with ⟨error | ⟨⟨⟩⟩, after⟩ <;> rfl

/-! ## One class -/

/-- A conversation of a bridge and the outcome that is reported of its class. -/
structure Heard (b : Bridge) (talk : Conversation) (outcome : ClassOutcome) : Prop where
  name : talk.name = b.name
  answered : ∀ x ∈ talk.loads, x.2 = b.answer x.1
  outcome : outcome = .retransformed ↔ ∃ image, talk.ownEntry = some (b.name, image)

theorem heard_talk (inst : Instrumenter φ) (vm : Vm σ) (b : Bridge) (state : σ) (store : φ) :
    Heard b (b.talk vm state) (inst.retransformOne vm b state store).1 where
  name := rfl
  answered := fun _ => Bridge.answer_of_mem_heard
  outcome := by
    rw [retransformOne, Conversation.ownEntry, b.lastAnswer_talk]
    simp only [Bridge.talk]
    rcases (vm.retransform state b.name).run b.hook .notReached with
      ⟨⟨error | ⟨⟨⟩⟩, after⟩, seen⟩
    · simp [classOutcome]
    · cases seen <;> simp [classOutcome, BridgeOutcome.image?]

theorem view_retransformOne {view : σ → ClassName → Option Bytes} (hvm : vm.StoresReturned view)
    (inst : Instrumenter φ) (b : Bridge) (state : σ) (store : φ) :
    view (inst.retransformOne vm b state store).2.1 =
      bytesAfter (view state) b.name (b.talk vm state).images.getLast? :=
  (hvm.stores state b.name).view_run b .notReached

/-! ## All classes -/

/-- What the conversations about the classes of a batch, one about each, tell of the report, of
the bytes that the machine has in the end, and of the entries that were to be written. -/
structure HeardAll (inst : Instrumenter φ) (view : σ → ClassName → Option Bytes)
    (bs : List Bridge) (state : σ) (done : List (ClassName × ClassOutcome) × σ × φ)
    (talks : List Conversation) (writes : List CacheWrite) : Prop where
  names : talks.map Conversation.name = bs.map Bridge.name
  heard : ∀ talk ∈ talks, ∃ b ∈ bs, ∃ outcome, Heard b talk outcome ∧
    done.1.lookup b.name = some outcome ∧
    view done.2.1 b.name = talk.images.getLast?.or (view state b.name)
  others : ∀ c, c ∉ bs.map Bridge.name → view done.2.1 c = view state c
  entries : writes.map CacheWrite.entry =
    if inst.activeCache.isSome then talks.filterMap Conversation.ownEntry else []

/-- The classes of a batch are loaded again as without a record. -/
theorem exists_heardAll {view : σ → ClassName → Option Bytes} (hvm : vm.StoresReturned view)
    (inst : Instrumenter φ) (hnodup : (bs.map Bridge.name).Nodup) (state : σ)
    (talks : List Conversation) (store : φ) (writes : List CacheWrite) :
    ∃ talks' writes',
      inst.recorded.retransformAll vm.overheard bs (state, talks) (store, writes) =
        ((inst.retransformAll vm bs state store).1,
          ((inst.retransformAll vm bs state store).2.1, talks ++ talks'),
          ((inst.retransformAll vm bs state store).2.2, writes ++ writes')) ∧
      HeardAll inst view bs state (inst.retransformAll vm bs state store) talks' writes' := by
  induction bs generalizing state talks store writes with
  | nil =>
    refine ⟨[], [], ?_, rfl, nofun, fun _ _ => rfl, (ite_self []).symm⟩
    rw [List.append_nil, List.append_nil]
    rfl
  | cons b bs ih =>
    obtain ⟨hb, hnodup⟩ := List.nodup_cons.mp hnodup
    have hone := retransformOne_recorded inst vm b state talks store writes
    have hheard := heard_talk inst vm b state store
    have hview := view_retransformOne hvm inst b state store
    rw [retransformAll, retransformAll, hone]
    generalize inst.retransformOne vm b state store = done at hheard hview ⊢
    obtain ⟨outcome, after, kept⟩ := done
    obtain ⟨talks', writes', hrun, hrest⟩ := ih hnodup after (talks ++ [b.talk vm state]) kept
      (writes ++ inst.writesOf store (b.talk vm state).ownEntry)
    refine ⟨b.talk vm state :: talks', inst.writesOf store (b.talk vm state).ownEntry ++ writes',
      ?run, ?names, ?heard, ?others, ?entries⟩
    case run => simp only [hrun, List.append_assoc, List.singleton_append]
    case names => exact congrArg (b.name :: ·) hrest.names
    case heard =>
      refine List.forall_mem_cons.mpr ⟨⟨b, List.mem_cons_self, outcome, hheard,
        List.lookup_cons_self, ?_⟩, fun talk htalk => ?_⟩
      · -- the bridges behind have other classes
        exact (hrest.others _ hb).trans ((congrFun hview _).trans (bytesAfter_own ..))
      · obtain ⟨b', hb', outcome', hheard', hlookup, hbytes⟩ := hrest.heard talk htalk
        have hne : b'.name ≠ b.name := fun hname => hb (hname ▸ List.mem_map_of_mem hb')
        refine ⟨b', List.mem_cons_of_mem b hb', outcome', hheard', ?_, ?_⟩
        · rw [List.lookup_cons, beq_false_of_ne hne]
          exact hlookup
        · exact hbytes.trans
            (congrArg _ ((congrFun hview _).trans (bytesAfter_of_ne _ hne _)))
    case others =>
      intro c hc
      obtain ⟨hcb, hc⟩ := not_or.mp (mt List.mem_cons.mpr hc)
      exact (hrest.others c hc).trans ((congrFun hview c).trans (bytesAfter_of_ne _ hcb _))
    case entries =>
      rw [List.map_append, map_entry_writesOf, hrest.entries, List.filterMap_cons]
      split
      · cases (b.talk vm state).ownEntry <;> rfl
      · rfl

namespace HeardAll

variable {view : σ → ClassName → Option Bytes}
  {done : List (ClassName × ClassOutcome) × σ × φ} {talks : List Conversation}
  {writes : List CacheWrite} {talk : Conversation}

/-- The classes that were retransformed are those that have an entry. -/
theorem lookup_eq_retransformed_iff (h : HeardAll inst view bs state done talks writes)
    (htalk : talk ∈ talks) :
    done.1.lookup talk.name = some .retransformed ↔
      ∃ image, talk.ownEntry = some (talk.name, image) := by
  obtain ⟨b, -, outcome, hheard, hlookup, -⟩ := h.heard talk htalk
  rw [hheard.name, hlookup, Option.some.injEq]
  exact hheard.outcome

/-- Only entries of classes that were retransformed are written. -/
theorem lookup_of_mem_writes (h : HeardAll inst view bs state done talks writes)
    {w : CacheWrite} (hw : w ∈ writes) : done.1.lookup w.name = some .retransformed := by
  have hentry : w.entry ∈ writes.map CacheWrite.entry := List.mem_map_of_mem hw
  rw [h.entries] at hentry
  split at hentry
  · obtain ⟨talk, htalk, hentry⟩ := List.mem_filterMap.mp hentry
    obtain ⟨hname, -⟩ := Conversation.ownEntry_eq_some_iff.mp hentry
    have hown : talk.ownEntry = some (talk.name, w.bytes) := by rw [hentry, hname]; rfl
    have hlookup := (h.lookup_eq_retransformed_iff htalk).mpr ⟨_, hown⟩
    rwa [hname] at hlookup
  · cases hentry

/-- The entry of a class is written once. -/
theorem filter_writes (h : HeardAll inst view bs state done talks writes)
    (hnodup : (bs.map Bridge.name).Nodup) (hactive : inst.activeCache ≠ none)
    (htalk : talk ∈ talks) {image : Bytes} (hentry : talk.ownEntry = some (talk.name, image)) :
    ∃ result, writes.filter (fun w => w.name = talk.name) = [⟨talk.name, image, result⟩] := by
  have hentries := h.entries
  rw [if_pos (Option.isSome_iff_ne_none.mpr hactive)] at hentries
  have hone : (writes.filter fun w => w.name = talk.name).map CacheWrite.entry =
      [(talk.name, image)] :=
    calc (writes.filter fun w => w.name = talk.name).map CacheWrite.entry
        = (writes.map CacheWrite.entry).filter (fun e => e.1 = talk.name) := by
          rw [List.filter_map]
          rfl
      _ = (talks.filter fun t => t.name = talk.name).filterMap Conversation.ownEntry := by
        rw [hentries, Conversation.filter_entries]
      _ = [(talk.name, image)] := by
        rw [Conversation.filter_of_nodup (h.names ▸ hnodup) htalk,
          List.filterMap_cons_some hentry, List.filterMap_nil]
  obtain ⟨w, hw, hwentry⟩ := List.map_eq_singleton_iff.mp hone
  obtain ⟨hname, hbytes⟩ := Prod.mk.inj hwentry
  exact ⟨w.result, by rw [hw, ← hname, ← hbytes]⟩

end HeardAll

end Records

section Batches

variable {σ φ : Type} {inst : Instrumenter φ} {vm : Vm σ} {view : σ → ClassName → Option Bytes}
  {ts : List Transform} {state s : σ} {store : φ}

/-! ## Batches without a cache -/

theorem retransformAll_of_inactive (hcache : inst.activeCache = none) (vm : Vm σ)
    (bs : List Bridge) (state : σ) (store : φ) :
    inst.retransformAll vm bs state store =
      ((cacheless.retransformAll vm bs state ()).1, (cacheless.retransformAll vm bs state ()).2.1,
        store) := by
  have hstore : (inst.retransformAll vm bs state store).2.2 = store := by
    induction bs generalizing state with
    | nil => rfl
    | cons b bs ih =>
      rw [retransformAll, retransformOne_of_inactive hcache]
      exact ih _
  obtain ⟨houtcomes, hstate⟩ := retransformAll_eq_cacheless inst vm bs state store
  exact Prod.ext houtcomes (Prod.ext hstate hstore)

theorem process_of_inactive (hcache : inst.activeCache = none) (vm : Vm σ) (bs : List Bridge)
    (state : σ) (store : φ) :
    inst.process vm bs state store =
      ((cacheless.process vm bs state ()).1, (cacheless.process vm bs state ()).2.1, store) := by
  have hfound : inst.redefineFromCache vm bs state store = (none, state) := by
    rw [redefineFromCache, hcache]
  have hplain : cacheless.redefineFromCache vm bs state () = (none, state) := rfl
  rw [process_of_none hfound, process_of_none hplain, retransformAll_of_inactive hcache]

/-- A batch that does not use its cache leaves the store as it is, and nothing else depends on
the cache or on the store. -/
theorem instrument_of_inactive (hcache : inst.activeCache = none) (vm : Vm σ)
    (ts : List Transform) (state : σ) (store : φ) :
    inst.instrument vm ts state store =
      ⟨(cacheless.instrument vm ts state ()).result, (cacheless.instrument vm ts state ()).notices,
        (cacheless.instrument vm ts state ()).state, store⟩ := by
  rw [instrument, instrument]
  cases ts.find? fun t => !vm.isLoaded state t.className with
  | some t => rfl
  | none =>
    dsimp only
    split
    · rfl
    · rcases vm.setLoadHook state true with ⟨e | ⟨⟨⟩⟩, s⟩
      · rfl
      · simp only [process_of_inactive hcache]
        split <;> rfl

/-! ## Fresh batches -/

/-- A batch that gets as far as its classes and loads them again: it has some, all of them are
loaded, the notification can be switched on, and there are not entries for all of them, or the
machine refuses them. -/
structure LoadsAgain (inst : Instrumenter φ) (vm : Vm σ) (ts : List Transform) (state s : σ)
    (store : φ) : Prop where
  nonempty : ts ≠ []
  loaded : ∀ t ∈ ts, vm.isLoaded state t.className = true
  enabled : vm.setLoadHook state true = (.ok (), s)
  refused : ∀ entries, inst.Cached store (batchClasses ts) entries →
    ∃ e, (vm.redefine s entries).1 = .error e

theorem LoadsAgain.redefineFromCache_eq (h : LoadsAgain inst vm ts state s store) :
    (inst.redefineFromCache vm (Bridge.ofTransforms ts) s store).1 = none := by
  have hnames : (Bridge.ofTransforms ts).map Bridge.name = batchClasses ts :=
    Bridge.map_name_ofTransforms ts
  by_cases hcached : ∃ entries, inst.Cached store (batchClasses ts) entries
  · obtain ⟨entries, hcached⟩ := hcached
    obtain ⟨e, he⟩ := h.refused entries hcached
    rw [(hnames.symm ▸ hcached : inst.Cached store _ entries).redefineFromCache_eq vm s, he]
    rfl
  · rw [redefineFromCache_of_missing vm s (hnames.symm ▸ not_exists.mp hcached)]

/-- The end of a batch with a record. -/
theorem conclude_overheard (vm : Vm σ) (r : BatchReport) (s : σ) (store : φ)
    (talks : List Conversation) (writes : List CacheWrite) :
    conclude vm.overheard (r, (s, talks), (store, writes)) =
      ⟨(conclude vm (r, s, store)).result, (conclude vm (r, s, store)).notices,
        ((conclude vm (r, s, store)).state, talks),
        ((conclude vm (r, s, store)).store, writes)⟩ := by
  rw [conclude, conclude]
  split <;> rfl

/-- A fresh batch runs as without a record, and what is recorded is heard of its classes, once
the notification is on and the entries of the cache, if there are any, were refused. -/
theorem LoadsAgain.exists_heardAll (h : LoadsAgain inst vm ts state s store)
    (hvm : vm.StoresReturned view) :
    ∃ s' done talks writes,
      inst.instrument vm ts state store = conclude vm (⟨done.1⟩, done.2) ∧
      inst.recorded.instrument vm.overheard ts (state, []) (store, []) =
        ⟨(inst.instrument vm ts state store).result,
          (inst.instrument vm ts state store).notices,
          ((inst.instrument vm ts state store).state, talks),
          ((inst.instrument vm ts state store).store, writes)⟩ ∧
      HeardAll inst view (Bridge.ofTransforms ts) s' done talks writes := by
  have hnodup : ((Bridge.ofTransforms ts).map Bridge.name).Nodup := by
    rw [Bridge.map_name_ofTransforms]
    exact nodup_batchClasses ts
  have henabled : vm.overheard.setLoadHook (state, []) true = (.ok (), (s, [])) := by
    have hcall : vm.overheard.setLoadHook (state, []) true =
        ((vm.setLoadHook state true).1, ((vm.setLoadHook state true).2, [])) := rfl
    rw [hcall, h.enabled]
  -- a refused redefinition may leave another state, which is where the classes are loaded again
  have hnone := h.redefineFromCache_eq
  have hrecorded := redefineFromCache_recorded inst vm (Bridge.ofTransforms ts) s [] store []
  rcases hfound : inst.redefineFromCache vm (Bridge.ofTransforms ts) s store with ⟨found, s'⟩
  rw [hfound] at hnone hrecorded
  obtain rfl : found = none := hnone
  obtain ⟨talks, writes, hrun, hall⟩ :=
    Instrumenter.exists_heardAll hvm inst hnodup s' [] store []
  refine ⟨s', _, talks, writes, ?plain, ?record, hall⟩
  case plain =>
    rw [instrument_of_enabled inst vm h.loaded h.nonempty h.enabled, process_of_none hfound]
  case record =>
    rw [instrument_of_enabled inst.recorded vm.overheard h.loaded h.nonempty henabled,
      process_of_none hrecorded, hrun, conclude_overheard,
      instrument_of_enabled inst vm h.loaded h.nonempty h.enabled, process_of_none hfound]
    rfl

/-- What a batch leaves, as it follows from the conversations about its classes. -/
structure Agrees (inst : Instrumenter φ) (vm : Vm σ) (view : σ → ClassName → Option Bytes)
    (ts : List Transform) (state : σ) (out : Outcome σ φ BatchReport InstrumentError)
    (talks : List Conversation) (writes : List CacheWrite) : Prop where
  /-- There is one conversation about every class, in order. -/
  names : talks.map Conversation.name = batchClasses ts
  /-- Every load in it was answered by the bridge of the class. -/
  answered : ∀ talk ∈ talks, ∀ x ∈ talk.loads,
    x.2 = (ownBridge ts talk.name).answer x.1
  /-- A class is reported as retransformed exactly if the machine reported success and the last
  load of the class was answered with bytes. -/
  retransformed_iff : ∀ talk ∈ talks, out.outcome? talk.name = some .retransformed ↔
    talk.result = .ok () ∧ ∃ image, talk.lastAnswer = some image
  /-- The machine has then the last bytes that were returned for the class, and they are what is
  written for it, once, if the cache is in use. -/
  held : ∀ talk ∈ talks, out.outcome? talk.name = some .retransformed →
    ∃ image, talk.images.getLast? = some image ∧ view out.state talk.name = some image ∧
      (inst.activeCache ≠ none → ∃ result,
        writes.filter (fun w => w.name = talk.name) = [⟨talk.name, image, result⟩])
  /-- Nothing is written for any other class. -/
  unwritten : ∀ c, out.outcome? c ≠ some .retransformed → ∀ w ∈ writes, w.name ≠ c
  /-- If the cache is not in use, nothing is written, and the batch runs in the same way with any
  other cache that is not in use, or none, whatever there is to be read, and leaves its store as
  it is. -/
  inactive : inst.activeCache = none → writes = [] ∧
    ∀ {ψ : Type} (inst' : Instrumenter ψ) (store' : ψ), inst'.activeCache = none →
      inst'.instrument vm ts state store' = ⟨out.result, out.notices, out.state, store'⟩

/-- On a machine that stores what is returned for the classes it loads, the machine, the report
and the cache agree after every fresh batch. -/
theorem agrees_of_loadsAgain (hvm : vm.StoresReturned view)
    (h : LoadsAgain inst vm ts state s store) :
    ∃ talks writes,
      inst.recorded.instrument vm.overheard ts (state, []) (store, []) =
        ⟨(inst.instrument vm ts state store).result,
          (inst.instrument vm ts state store).notices,
          ((inst.instrument vm ts state store).state, talks),
          ((inst.instrument vm ts state store).store, writes)⟩ ∧
      Agrees inst vm view ts state (inst.instrument vm ts state store) talks writes := by
  have hnames : (Bridge.ofTransforms ts).map Bridge.name = batchClasses ts :=
    Bridge.map_name_ofTransforms ts
  obtain ⟨s', done, talks, writes, hout, hrecord, hall⟩ := h.exists_heardAll hvm
  have houtcome : ∀ c, (inst.instrument vm ts state store).outcome? c = done.1.lookup c :=
    fun c => by rw [hout, outcome?_conclude]; rfl
  have hview : view (inst.instrument vm ts state store).state = view done.2.1 := by
    rw [hout, state_conclude, hvm.keeps]
  have hheard : ∀ talk ∈ talks, ∃ outcome,
      Heard (ownBridge ts talk.name) talk outcome ∧
      view done.2.1 talk.name = talk.images.getLast?.or (view s' talk.name) := by
    intro talk htalk
    obtain ⟨b, hb, outcome, hheard, -, hbytes⟩ := hall.heard talk htalk
    rw [ofTransforms_eq_map] at hb
    obtain ⟨c, -, rfl⟩ := List.mem_map.mp hb
    obtain rfl : talk.name = c := hheard.name
    exact ⟨outcome, hheard, hbytes⟩
  refine ⟨talks, writes, hrecord, ?_⟩
  exact {
    names := hall.names.trans hnames
    answered := fun talk htalk => by
      obtain ⟨outcome, hheard, -⟩ := hheard talk htalk
      exact hheard.answered
    retransformed_iff := fun talk htalk => by
      rw [houtcome, hall.lookup_eq_retransformed_iff htalk]
      simp only [Conversation.ownEntry_eq_some_iff, true_and, exists_and_left]
    held := fun talk htalk hre => by
      obtain ⟨outcome, hheard, hbytes⟩ := hheard talk htalk
      rw [houtcome, hall.lookup_eq_retransformed_iff htalk] at hre
      obtain ⟨image, hentry⟩ := hre
      obtain ⟨-, -, hlast⟩ := Conversation.ownEntry_eq_some_iff.mp hentry
      have himages := Bridge.getLast?_images hheard.name hheard.answered hlast
      refine ⟨image, himages, ?_, fun hactive => ?_⟩
      · rw [hview, hbytes, himages, Option.some_or]
      · exact hall.filter_writes (hnames ▸ nodup_batchClasses ts) hactive htalk hentry
    unwritten := fun c hc w hw hname => by
      rw [houtcome, ← hname] at hc
      exact hc (hall.lookup_of_mem_writes hw)
    inactive := fun hinactive => by
      have hentries := hall.entries
      rw [hinactive] at hentries
      refine ⟨List.map_eq_nil_iff.mp hentries, fun inst' store' hinactive' => ?_⟩
      rw [instrument_of_inactive hinactive', instrument_of_inactive hinactive] }

end Batches

/-- Batches with an empty cache in use. -/
def caching : Instrumenter FileTree := new (some (Cache.inDirectory ⟨"/cache"⟩))

set_option maxRecDepth 20000 in
/-- Of two classes that load each other, one is loaded twice and retransformed.  The machine
refuses the other one in the end, and nothing is written for it. -/
theorem agrees_of_loadsAgain_crossing :
    LoadsAgain caching (ScriptedVm.machine Allocator.heap) interleaved crossing
        { crossing with hookEnabled := true } emptyDirectory ∧
      ∃ out talks writes image result,
        out = caching.instrument (ScriptedVm.machine Allocator.heap) interleaved crossing
          emptyDirectory ∧
        Agrees caching (ScriptedVm.machine Allocator.heap) ScriptedVm.bytesOf? interleaved crossing
          out talks writes ∧
        out.outcome? ⟨"A"⟩ = some .retransformed ∧ out.state.bytesOf? ⟨"A"⟩ = some image ∧
        writes.filter (fun w => w.name = ⟨"A"⟩) = [⟨⟨"A"⟩, image, result⟩] ∧
        writes.filter (fun w => w.name = ⟨"B"⟩) = [] := by
  have hloads : LoadsAgain caching (ScriptedVm.machine Allocator.heap) interleaved crossing
      { crossing with hookEnabled := true } emptyDirectory :=
    ⟨List.cons_ne_nil _ _, by decide +kernel, rfl, fun entries hcached =>
      absurd hcached (not_cached_of_empty (List.cons_ne_nil _ _)
        (read_emptyDirectory ⟨"/cache"⟩) entries)⟩
  obtain ⟨talks, writes, -, hagrees⟩ :=
    agrees_of_loadsAgain (ScriptedVm.storesReturned Allocator.heap) hloads
  have hretransformed : (caching.instrument (ScriptedVm.machine Allocator.heap) interleaved
      crossing emptyDirectory).outcome? ⟨"A"⟩ = some .retransformed := by decide +kernel
  have hfailed : (caching.instrument (ScriptedVm.machine Allocator.heap) interleaved
      crossing emptyDirectory).outcome? ⟨"B"⟩ ≠ some .retransformed := by decide +kernel
  have hclass : ⟨"A"⟩ ∈ talks.map Conversation.name := by
    rw [hagrees.names]
    decide +kernel
  obtain ⟨talk, htalk, hname⟩ := List.mem_map.mp hclass
  obtain ⟨image, -, hbytes, hwritten⟩ := hagrees.held talk htalk (hname.symm ▸ hretransformed)
  obtain ⟨result, hwritten⟩ := hwritten (Option.some_ne_none _)
  rw [hname] at hbytes hwritten
  refine ⟨hloads, _, talks, writes, image, result, rfl, hagrees, hretransformed, hbytes,
    hwritten, List.filter_eq_nil_iff.mpr fun w hw => ?_⟩
  simpa using hagrees.unwritten ⟨"B"⟩ hfailed w hw

end Instrumenter

end DexWeave
