/-
  DexWeave/Proofs/CacheAgreement.lean --- cached batches do what fresh ones do.

  WHAT THIS FILE IS FOR.  A batch that fills an empty cache and a batch that uses that cache
  afterwards come to the same: on a second machine with the same classes every class gets, in
  one call, exactly the bytes it has on the first one.

  WHAT IT TAKES.  The writing of every entry succeeds, which is read off a cache with a record
  of its writes; and no class has a dot in its name, so that no entry takes the place of
  another.  The first machine may load classes in any way; the second one switches the
  notification on and takes the bytes it is given.
-/
import DexWeave.Proofs.BatchEffect
import DexWeave.Proofs.CacheEntry

set_option autoImplicit false

namespace DexWeave

/-! ## Caches with a record -/

/-- An entry that was to be written. -/
structure CacheWrite where
  /-- The class. -/
  name : ClassName
  /-- Its bytes. -/
  bytes : Bytes
  /-- What the cache answered. -/
  result : Except FileError Unit

/-- The cache with a record of its writes beside its state. -/
def ClassCache.recorded {φ : Type} (cache : ClassCache φ) : ClassCache (φ × List CacheWrite) where
  read store c := cache.read store.1 c
  write store c bytes :=
    let (result, files) := cache.write store.1 c bytes
    (result, files, store.2 ++ [⟨c, bytes, result⟩])

namespace Instrumenter

section Caches

variable {σ φ ψ : Type} {inst : Instrumenter φ} {inst' : Instrumenter ψ} {store : φ} {store' : ψ}

theorem cached_new_iff {cache : ClassCache φ} {names : List ClassName}
    {entries : List (ClassName × Bytes)} :
    (new (some cache)).Cached store names entries ↔
      entries.map Prod.fst = names ∧ ∀ e ∈ entries, cache.read store e.1 = .ok (some e.2) := by
  constructor
  · rintro ⟨hnames, cache', hcache, hread⟩
    obtain rfl := Option.some.inj hcache
    exact ⟨hnames, hread⟩
  · exact fun ⟨hnames, hread⟩ => ⟨hnames, cache, rfl, hread⟩

/-- An empty cache does not have the entries of a batch. -/
theorem not_cached_of_empty {cache : ClassCache φ} {ts : List Transform} (hts : ts ≠ [])
    (hempty : ∀ c bytes, cache.read store c ≠ .ok (some bytes))
    (entries : List (ClassName × Bytes)) :
    ¬ (new (some cache)).Cached store (batchClasses ts) entries := by
  intro hcached
  obtain ⟨hnames, hread⟩ := cached_new_iff.mp hcached
  obtain ⟨t, ht⟩ := List.exists_mem_of_ne_nil ts hts
  have hc : t.className ∈ batchClasses ts := mem_batchClasses.mpr ⟨t, ht, rfl⟩
  obtain ⟨e, he, -⟩ := List.mem_map.mp (hnames ▸ hc)
  exact hempty _ _ (hread e he)

theorem cached_recorded_iff {cache : ClassCache φ} {names : List ClassName}
    {entries : List (ClassName × Bytes)} (log : List CacheWrite) :
    (new (some cache.recorded)).Cached (store, log) names entries ↔
      (new (some cache)).Cached store names entries := by
  rw [cached_new_iff, cached_new_iff]
  rfl

/-- What a batch does to the classes, and what it says of it, depends on the cache only by the
entries that are found at first. -/
theorem process_congr (vm : Vm σ) (bs : List Bridge) (state : σ)
    (h : ∀ entries, inst.Cached store (bs.map Bridge.name) entries ↔
      inst'.Cached store' (bs.map Bridge.name) entries) :
    (inst.process vm bs state store).1 = (inst'.process vm bs state store').1 ∧
      (inst.process vm bs state store).2.1 = (inst'.process vm bs state store').2.1 := by
  have hcache : inst.redefineFromCache vm bs state store =
      inst'.redefineFromCache vm bs state store' := by
    by_cases hcached : ∃ entries, inst.Cached store (bs.map Bridge.name) entries
    · obtain ⟨entries, hcached⟩ := hcached
      rw [hcached.redefineFromCache_eq, ((h entries).mp hcached).redefineFromCache_eq]
    · have hmissing := not_exists.mp hcached
      rw [redefineFromCache_of_missing vm state hmissing, redefineFromCache_of_missing vm state
        fun entries hcached => hmissing entries ((h entries).mpr hcached)]
  rcases hfound : inst.redefineFromCache vm bs state store with ⟨_ | r, s⟩
  · obtain ⟨houtcomes, hstate⟩ := retransformAll_eq_cacheless inst vm bs s store
    obtain ⟨houtcomes', hstate'⟩ := retransformAll_eq_cacheless inst' vm bs s store'
    rw [process_of_none hfound, process_of_none (hcache.symm.trans hfound)]
    exact ⟨congrArg BatchReport.mk (houtcomes.trans houtcomes'.symm), hstate.trans hstate'.symm⟩
  · rw [process_of_some hfound, process_of_some (hcache.symm.trans hfound)]
    exact ⟨rfl, rfl⟩

/-- The end of a batch, but for what it leaves in the cache. -/
def Outcome.ending {α ε : Type} (out : Outcome σ φ α ε) : Except ε α × List Notice × σ :=
  (out.result, out.notices, out.state)

/-- A batch ends in the same way with any cache in which the same entries are found at first. -/
theorem ending_instrument_congr (vm : Vm σ) {ts : List Transform} (state : σ)
    (h : ∀ entries, inst.Cached store (batchClasses ts) entries ↔
      inst'.Cached store' (batchClasses ts) entries) :
    (inst.instrument vm ts state store).ending = (inst'.instrument vm ts state store').ending := by
  have hnames : (Bridge.ofTransforms ts).map Bridge.name = batchClasses ts :=
    Bridge.map_name_ofTransforms ts
  rw [instrument, instrument]
  cases ts.find? fun t => !vm.isLoaded state t.className with
  | some t => rfl
  | none =>
    dsimp only
    split
    · rfl
    · rcases vm.setLoadHook state true with ⟨e | ⟨⟨⟩⟩, s⟩
      · rfl
      · obtain ⟨hreport, hstate⟩ := process_congr vm (Bridge.ofTransforms ts) s (hnames.symm ▸ h)
        simp only [hreport, hstate]
        split <;> rfl

theorem result_instrument_congr (vm : Vm σ) {ts : List Transform} (state : σ)
    (h : ∀ entries, inst.Cached store (batchClasses ts) entries ↔
      inst'.Cached store' (batchClasses ts) entries) :
    (inst.instrument vm ts state store).result = (inst'.instrument vm ts state store').result :=
  congrArg Prod.fst (ending_instrument_congr vm state h)

end Caches

/-! ## Entries written one after the other -/

section Entries

variable {φ κ : Type} {cache : ClassCache φ} {key : ClassName → κ}
  {entries : List (ClassName × Bytes)} {store : φ} {log : List CacheWrite}

theorem stashAll_cons_recorded (e : ClassName × Bytes) :
    (new (some cache.recorded)).stashAll (e :: entries) (store, log) =
      (new (some cache.recorded)).stashAll entries
        ((cache.write store e.1 e.2).2,
          log ++ [⟨e.1, e.2, (cache.write store e.1 e.2).1⟩]) := rfl

theorem prefix_stashAll_recorded :
    log <+: ((new (some cache.recorded)).stashAll entries (store, log)).2 := by
  induction entries generalizing store log with
  | nil => exact List.prefix_rfl
  | cons e entries ih => exact (List.prefix_append log _).trans ih

/-- Entries of other keys are as before. -/
theorem read_stashAll_of_ne (hcache : cache.Keyed key) {c : ClassName}
    (h : ∀ e ∈ entries, key c ≠ key e.1) :
    cache.read ((new (some cache)).stashAll entries store) c = cache.read store c := by
  induction entries generalizing store with
  | nil => rfl
  | cons e entries ih =>
    exact (ih fun e' he' => h e' (List.mem_cons_of_mem e he')).trans
      (hcache.read_write_of_ne (h e List.mem_cons_self) store e.2)

/-- Entries of different keys that were all written are all read back. -/
theorem read_stashAll (hcache : cache.Keyed key) (hkeys : (entries.map fun e => key e.1).Nodup)
    (hok : ∀ w ∈ ((new (some cache.recorded)).stashAll entries (store, log)).2,
      w.result = .ok ()) :
    ∀ e ∈ entries,
      cache.read ((new (some cache)).stashAll entries store) e.1 = .ok (some e.2) := by
  induction entries generalizing store log with
  | nil => exact fun _ he => absurd he List.not_mem_nil
  | cons first entries ih =>
    obtain ⟨hfirst, hkeys⟩ := List.nodup_cons.mp hkeys
    rw [stashAll_cons_recorded] at hok
    intro e he
    rcases List.mem_cons.mp he with rfl | he
    · have hwritten : (cache.write store e.1 e.2).1 = .ok () :=
        hok _ (prefix_stashAll_recorded.subset (List.mem_append_right log List.mem_cons_self))
      have hrest : cache.read ((new (some cache)).stashAll entries
          (cache.write store e.1 e.2).2) e.1 = _ := read_stashAll_of_ne hcache
        fun e' he' hkey => hfirst (List.mem_map.mpr ⟨e', he', Eq.symm hkey⟩)
      exact hrest.trans (hcache.read_write hwritten)
    · exact ih hkeys hok e he

end Entries

/-! ## Two batches -/

section Batches

variable {σ τ : Type} {vm : Vm σ} {view : σ → ClassName → Option Bytes}
  {plan : ClassName → LoadPlan} {listening : σ → Prop} {vm' : Vm τ}
  {view' : τ → ClassName → Option Bytes} {plan' : ClassName → LoadPlan} {listening' : τ → Prop}
  {ts : List Transform} {state : σ} {state' : τ} {root : Path} {files : FileTree}
  {r : BatchReport}

theorem nodup_entryName_of_no_dot {cs : List ClassName} (hcs : cs.Nodup)
    (hdot : ∀ c ∈ cs, '.' ∉ c.text.toList) : (cs.map Cache.entryName).Nodup :=
  hcs.map_on fun c hc c' hc' h => Cache.entryName_injective_of_no_dot (hdot c hc) (hdot c' hc') h

/-- A success that loaded its classes again has given each of them its entry. -/
theorem Reloaded.view_eq {φ : Type} {inst : Instrumenter φ} {store : φ}
    {out : Outcome σ φ BatchReport InstrumentError}
    (h : Reloaded inst view plan ts state store out) (hok : out.result = .ok r) :
    view out.state = bytesWith (view state)
      (entriesOf plan (view state) (Bridge.ofTransforms ts)) := by
  have hnames := h.map_fst_entries hok
  funext c
  by_cases hc : c ∈ batchClasses ts
  · obtain ⟨e, he, rfl⟩ := List.mem_map.mp (hnames ▸ hc)
    rw [bytesWith_of_mem (hnames ▸ nodup_batchClasses ts) he]
    exact (h.of_mem_entries he).2.2
  · rw [bytesWith_of_not_mem (hnames ▸ hc)]
    exact h.others c hc

/-- If a batch that starts with an empty cache succeeds and all its entries are written, then a
batch that has the resulting cache gives every class of a second machine, in one call, the bytes
it has on the first one. -/
theorem cached_batch_agrees (hvm : vm.Hosts view plan listening)
    (hvm' : vm'.Hosts view' plan' listening')
    (henables : ∀ s, (vm'.setLoadHook s true).1 = .ok ())
    (haccepts : ∀ s entries, (vm'.redefine s entries).1 = .ok ())
    (hstate : view' state' = view state) (hts : ts ≠ [])
    (hdot : ∀ t ∈ ts, '.' ∉ t.className.text.toList)
    (hempty : ∀ c bytes, (Cache.inDirectory root).read files c ≠ .ok (some bytes))
    (hok : ((new (some (Cache.inDirectory root))).instrument vm ts state files).result = .ok r)
    (hwritten : ∀ w ∈ ((new (some (Cache.inDirectory root).recorded)).instrument vm ts state
      (files, [])).store.2, w.result = .ok ()) :
    ∀ first second,
      first = (new (some (Cache.inDirectory root))).instrument vm ts state files →
      second = (new (some (Cache.inDirectory root))).instrument vm'.logged ts (state', [])
        first.store →
      second.result = .ok ⟨r.outcomes.map fun o => (o.1, .redefined)⟩ ∧
      second.state.2 = [.setLoadHook true, .redefine (batchClasses ts), .setLoadHook false] ∧
      view' second.state.1 = view first.state := by
  rintro first second rfl rfl
  have hkeyed := Cache.keyed_inDirectory root
  generalize Cache.inDirectory root = cache at hkeyed hempty hok hwritten ⊢
  -- no entry is found, so the first batch loads its classes again, with a record as without one
  have hmissing := not_cached_of_empty hts hempty
  have hfirst := reloaded_of_instrument_eq_ok hvm hts hmissing hok
  have hrecorded := reloaded_of_instrument_eq_ok hvm hts
    (fun entries hcached => hmissing entries ((cached_recorded_iff []).mp hcached))
    ((result_instrument_congr vm state fun _ => cached_recorded_iff []).trans hok)
  -- so all entries are found in what it leaves
  have hnames := hfirst.map_fst_entries hok
  have hview := hfirst.view_eq hok
  rw [hrecorded.store_eq] at hwritten
  generalize hentries : entriesOf plan (view state) (Bridge.ofTransforms ts) =
    entries at hnames hview hwritten
  have hcached : (new (some cache)).Cached
      ((new (some cache)).instrument vm ts state files).store (batchClasses ts) entries := by
    have hkeys := nodup_entryName_of_no_dot (nodup_batchClasses ts) fun c hc => by
      obtain ⟨t, ht, rfl⟩ := mem_batchClasses.mp hc
      exact hdot t ht
    rw [← hnames, List.map_map] at hkeys
    rw [hfirst.store_eq, hentries]
    exact cached_new_iff.mpr ⟨hnames, read_stashAll hkeyed hkeys hwritten⟩
  -- and the second batch gives them to the machine
  have hloaded : ∀ t ∈ ts, vm'.logged.isLoaded (state', []) t.className = true := by
    intro t ht
    have h := isLoaded_of_instrument_eq_ok hok t ht
    rw [hvm.isLoaded_eq, ← hstate, ← hvm'.isLoaded_eq] at h
    exact h
  have henable : vm'.logged.setLoadHook (state', []) true =
      (.ok (), (vm'.setLoadHook state' true).2, [.setLoadHook true]) :=
    Prod.ext (henables state') rfl
  have hredefine : vm'.logged.redefine ((vm'.setLoadHook state' true).2, [.setLoadHook true])
      entries = (.ok (), (vm'.redefine (vm'.setLoadHook state' true).2 entries).2,
        [.setLoadHook true] ++ [.redefine (entries.map Prod.fst)]) :=
    Prod.ext (haccepts _ entries) rfl
  rw [instrument_of_cached hloaded hts henable hcached hredefine, hnames]
  refine ⟨?_, rfl, ?_⟩
  · rw [← map_fst_of_instrument_eq_ok hts hok, List.map_map]
    rfl
  · rw [hview, ← hstate]
    exact (hvm'.keeps _ false).trans ((hvm'.stores _ entries (haccepts _ entries)).trans
      (congrArg (bytesWith · entries) (hvm'.keeps state' true)))

end Batches

/-- A directory with nothing in it. -/
def emptyDirectory : FileTree := ⟨[(["cache"], .directory)]⟩

theorem read_emptyDirectory (root : Path) (c : ClassName) (bytes : Bytes) :
    (Cache.inDirectory root).read emptyDirectory c ≠ .ok (some bytes) := by
  rw [Cache.read_inDirectory]
  intro h
  have hnode := Cache.node?_of_readEntry h
  rw [FileTree.node?, if_neg (Cache.entryPlace_ne_nil _ _), emptyDirectory, List.lookup_cons]
    at hnode
  split at hnode <;> cases hnode

/-- The second machine would refuse to load its class again, and is not asked to. -/
def stubborn : VmScript := ⟨none, none, none, [(⟨"A"⟩, ⟨some (.code 7), none, none⟩)]⟩

set_option maxRecDepth 20000 in
theorem cached_batch_agrees_stubborn :
    ∃ first second,
      first = (new (some (Cache.inDirectory ⟨"/cache"⟩))).instrument
        (ScriptedVm.following ScriptedVm.quiet Allocator.heap) [.hookRun "enter"]
        ScriptedVm.twoLoaded emptyDirectory ∧
      second = (new (some (Cache.inDirectory ⟨"/cache"⟩))).instrument
        (ScriptedVm.following stubborn Allocator.heap).logged [.hookRun "enter"]
        (ScriptedVm.twoLoaded, []) first.store ∧
      first.result = .ok ⟨[(⟨"A"⟩, .retransformed)]⟩ ∧
      second.result = .ok ⟨[(⟨"A"⟩, .redefined)]⟩ ∧
      second.state.2 = [.setLoadHook true, .redefine [⟨"A"⟩], .setLoadHook false] ∧
      second.state.1.bytesOf? = first.state.bytesOf? := by
  have hok : ((new (some (Cache.inDirectory ⟨"/cache"⟩))).instrument
      (ScriptedVm.following ScriptedVm.quiet Allocator.heap) [.hookRun "enter"]
      ScriptedVm.twoLoaded emptyDirectory).result = .ok ⟨[(⟨"A"⟩, .retransformed)]⟩ := by
    decide +kernel
  have hdot : ∀ t ∈ [Transform.hookRun "enter"], '.' ∉ t.className.text.toList := by decide
  have hclasses : batchClasses [.hookRun "enter"] = [⟨"A"⟩] := by decide +kernel
  obtain ⟨hresult, hcalls, hview⟩ := cached_batch_agrees
    (ScriptedVm.hosts_following _ Allocator.heap)
    (ScriptedVm.hosts_following stubborn Allocator.heap) (fun _ => rfl) (fun _ _ => rfl)
    (Eq.refl ScriptedVm.twoLoaded.bytesOf?) (List.cons_ne_nil _ _) hdot
    (read_emptyDirectory ⟨"/cache"⟩) hok (by decide +kernel) _ _ rfl rfl
  rw [hclasses] at hcalls
  exact ⟨_, _, rfl, rfl, hok, hresult, hcalls, hview⟩

end Instrumenter

end DexWeave
