/-
  DexWeave/Proofs/BridgeLoads.lean --- what a bridge answers to many loads.

  WHAT THIS FILE IS FOR.  A machine may load a class more than once while its bridge
  listens, and other classes in between.  Each load is answered on its own; what became
  of the class is one cell, which every load of the class writes again.

  WHAT THE CELL TELLS.  It holds what became of the latest load of the class, and no
  more.  If that load got bytes, they are the last bytes the machine was given.  If it
  kept its bytes, the machine may still have bytes of a load before it.
-/
import DexWeave.Proofs.BridgeLoad

set_option autoImplicit false

namespace DexWeave

namespace BridgeOutcome

/-- What became of a class by one load of it. -/
def ofResult : Except BridgeError Bytes → BridgeOutcome
  | .ok image => .replaced image
  | .error e => .failed e

/-- The bytes of a class that was replaced. -/
def image? : BridgeOutcome → Option Bytes
  | replaced image => some image
  | notReached | failed _ => none

theorem image?_ofResult (result : Except BridgeError Bytes) :
    (ofResult result).image? = result.toOption := by
  cases result <;> rfl

end BridgeOutcome

namespace Bridge

variable (b : Bridge)

/-! ## One load -/

/-- What a load makes of the class, unless it loads another one. -/
def result? (load : Allocator × ClassLoad) : Option (Except BridgeError Bytes) :=
  if load.2.name = b.name then
    some (transformClass b.name b.transforms load.1 load.2.bytes)
  else none

/-- The answer to a load. -/
def answer (load : Allocator × ClassLoad) : Option Bytes := (b.result? load).bind Except.toOption

variable {b} {load : Allocator × ClassLoad}

theorem result?_of_own (h : load.2.name = b.name) :
    b.result? load = some (transformClass b.name b.transforms load.1 load.2.bytes) := if_pos h

theorem result?_of_ne (h : load.2.name ≠ b.name) : b.result? load = none := if_neg h

theorem result?_eq_none_iff : b.result? load = none ↔ load.2.name ≠ b.name := by
  simp [result?]

theorem answer_of_own (h : load.2.name = b.name) :
    b.answer load = (transformClass b.name b.transforms load.1 load.2.bytes).toOption := by
  rw [answer, result?_of_own h, Option.bind_some]

theorem answer_of_ne (h : load.2.name ≠ b.name) : b.answer load = none := by
  rw [answer, result?_of_ne h, Option.bind_none]

/-- A load gets no bytes exactly if it is of another class or fails. -/
theorem answer_eq_none_iff : b.answer load = none ↔
    (load.2.name = b.name →
      ∃ e, transformClass b.name b.transforms load.1 load.2.bytes = .error e) := by
  by_cases h : load.2.name = b.name
  · rw [answer_of_own h]
    cases transformClass b.name b.transforms load.1 load.2.bytes <;> simp [h, Except.toOption]
  · simp [answer_of_ne h, h]

/-- A load is answered whatever was seen before, and is seen only if it is of the own class. -/
theorem onLoad_eq (seen : BridgeOutcome) (allocate : Allocator) (event : ClassLoad) :
    b.onLoad allocate seen event =
      (b.answer (allocate, event),
        ((b.result? (allocate, event)).map BridgeOutcome.ofResult).getD seen) := by
  by_cases h : event.name = b.name
  · rw [onLoad, if_pos h, answer_of_own h, result?_of_own h]
    cases transformClass b.name b.transforms allocate event.bytes <;> rfl
  · rw [onLoad, if_neg h, answer_of_ne h, result?_of_ne h]
    rfl

/-! ## Many loads -/

/-- Loads are answered one by one, and the latest load of the own class is what is remembered. -/
theorem onLoads_eq (seen : BridgeOutcome) (loads : List (Allocator × ClassLoad)) :
    b.onLoads seen loads =
      (loads.map b.answer,
        ((loads.filterMap b.result?).getLast?.map BridgeOutcome.ofResult).getD seen) := by
  induction loads generalizing seen with
  | nil => rfl
  | cons load loads ih =>
    obtain ⟨allocate, event⟩ := load
    simp only [onLoads, onLoad_eq, ih, List.map_cons]
    cases hresult : b.result? (allocate, event) with
    | none => simp [hresult]
    | some result =>
      -- this load is the latest only if no load behind it is of the own class
      cases hlast : (loads.filterMap b.result?).getLast? <;>
        simp [hresult, List.getLast?_cons, hlast]

/-- The last element of what is kept of a list comes from an element behind which nothing is
kept. -/
theorem exists_of_getLast?_filterMap {α β : Type} {f : α → Option β} {xs : List α} {y : β}
    (h : (xs.filterMap f).getLast? = some y) :
    ∃ front x back, xs = front ++ x :: back ∧ f x = some y ∧ ∀ z ∈ back, f z = none := by
  obtain ⟨kept, hkept⟩ := List.getLast?_eq_some_iff.mp h
  obtain ⟨front, tail, rfl, -, htail⟩ := List.filterMap_eq_append_iff.mp hkept
  obtain ⟨skipped, x, back, rfl, -, hx, hback⟩ := List.filterMap_eq_cons_iff.mp htail
  exact ⟨front ++ skipped, x, back, (List.append_assoc ..).symm, hx,
    List.filterMap_eq_nil_iff.mp hback⟩

/-- How the answers to loads and what is remembered of them hang together. -/
inductive Accounts (b : Bridge) :
    List (Allocator × ClassLoad) → List (Option Bytes) × BridgeOutcome → Prop
  /-- Other classes were loaded, if any. -/
  | foreign {loads : List (Allocator × ClassLoad)} (h : ∀ load ∈ loads, load.2.name ≠ b.name) :
      Accounts b loads (List.replicate loads.length none, .notReached)
  /-- A load of the class, and after it loads of other classes, if any. -/
  | settled (front : List (Allocator × ClassLoad)) {load : Allocator × ClassLoad}
      {back : List (Allocator × ClassLoad)} (hown : load.2.name = b.name)
      (hback : ∀ load ∈ back, load.2.name ≠ b.name) {result : Except BridgeError Bytes}
      (hresult : transformClass b.name b.transforms load.1 load.2.bytes = result) :
      Accounts b (front ++ load :: back)
        (front.map b.answer ++ result.toOption :: List.replicate back.length none,
          .ofResult result)

theorem map_answer_of_ne {loads : List (Allocator × ClassLoad)}
    (h : ∀ load ∈ loads, load.2.name ≠ b.name) :
    loads.map b.answer = List.replicate loads.length none := by
  rw [List.map_congr_left fun load hload => answer_of_ne (h load hload), List.map_const']

theorem accounts_onLoads (b : Bridge) (loads : List (Allocator × ClassLoad)) :
    b.Accounts loads (b.onLoads .notReached loads) := by
  rw [onLoads_eq]
  cases hlast : (loads.filterMap b.result?).getLast? with
  | none =>
    have hforeign : ∀ load ∈ loads, load.2.name ≠ b.name := fun load hload =>
      result?_eq_none_iff.mp
        (List.filterMap_eq_nil_iff.mp (List.getLast?_eq_none_iff.mp hlast) load hload)
    rw [map_answer_of_ne hforeign]
    exact .foreign hforeign
  | some result =>
    obtain ⟨front, load, back, rfl, hload, hback⟩ := exists_of_getLast?_filterMap hlast
    have hforeign := fun load hload => result?_eq_none_iff.mp (hback load hload)
    have hown : load.2.name = b.name := by
      by_contra hne
      rw [result?_of_ne hne] at hload
      cases hload
    rw [result?_of_own hown, Option.some.injEq] at hload
    rw [List.map_append, List.map_cons, map_answer_of_ne hforeign, answer_of_own hown, hload]
    exact .settled front hown hforeign hload

/-! ## What the machine was given -/

/-- The answers are none but those of a class that was replaced, whose bytes are the last that
were given. -/
structure Honest (b : Bridge) (loads : List (Allocator × ClassLoad)) : Prop where
  notReached : (b.onLoads .notReached loads).2 = .notReached →
    ∀ answer ∈ (b.onLoads .notReached loads).1, answer = none
  failed : ∀ e, (b.onLoads .notReached loads).2 = .failed e →
    ∀ answer ∈ (b.onLoads .notReached loads).1, answer = none
  replaced : ∀ image, (b.onLoads .notReached loads).2 = .replaced image →
    ((b.onLoads .notReached loads).1.filterMap id).getLast? = some image

/-- A class that was not reached got no bytes, and the bytes of a class that was replaced are the
last that were given.  A class that failed got none by the load that failed nor after it; before
it, every load of the class was answered on its own, so it got none at all exactly if all of them
failed, and so if there were none. -/
theorem answers_of_outcome (b : Bridge) (loads : List (Allocator × ClassLoad)) :
    ((b.onLoads .notReached loads).2 = .notReached →
      ∀ answer ∈ (b.onLoads .notReached loads).1, answer = none) ∧
    (∀ image, (b.onLoads .notReached loads).2 = .replaced image →
      ((b.onLoads .notReached loads).1.filterMap id).getLast? = some image) ∧
    ∀ e, (b.onLoads .notReached loads).2 = .failed e →
      ∃ front load back, loads = front ++ load :: back ∧ load.2.name = b.name ∧
        transformClass b.name b.transforms load.1 load.2.bytes = .error e ∧
        (∀ later ∈ back, later.2.name ≠ b.name) ∧
        (b.onLoads .notReached loads).1 =
          front.map b.answer ++ List.replicate (back.length + 1) none ∧
        ((∀ answer ∈ (b.onLoads .notReached loads).1, answer = none) ↔
          ∀ earlier ∈ front, earlier.2.name = b.name →
            ∃ e', transformClass b.name b.transforms earlier.1 earlier.2.bytes = .error e') := by
  have haccounts := accounts_onLoads b loads
  generalize b.onLoads .notReached loads = answered at haccounts ⊢
  cases haccounts with
  | foreign h =>
    refine ⟨fun _ answer hanswer => List.eq_of_mem_replicate hanswer, ?_, ?_⟩ <;> nofun
  | @settled front load back hown hback result hresult =>
    cases result with
    | ok image =>
      refine ⟨nofun, fun image' himage => ?_, nofun⟩
      obtain rfl := BridgeOutcome.replaced.inj himage
      simp [Except.toOption]
    | error e =>
      refine ⟨nofun, nofun, fun e' he => ?_⟩
      obtain rfl := BridgeOutcome.failed.inj he
      refine ⟨front, load, back, rfl, hown, hresult, hback, rfl, ?_⟩
      have hfront : (∀ answer ∈ front.map b.answer, answer = none) ↔
          ∀ earlier ∈ front, earlier.2.name = b.name →
            ∃ e', transformClass b.name b.transforms earlier.1 earlier.2.bytes = .error e' := by
        rw [List.forall_mem_map]
        exact forall₂_congr fun _ _ => answer_eq_none_iff
      have hrest : ∀ answer ∈ List.replicate (back.length + 1) (none : Option Bytes),
          answer = none := fun _ => List.eq_of_mem_replicate
      rw [← hfront]
      exact List.forall_mem_append.trans (and_iff_left hrest)

/-- The class is loaded twice; the second time there is no memory for its image. -/
def scarceLoads : List (Allocator × ClassLoad) :=
  [(Allocator.heap, ⟨⟨"A"⟩, Container.image DexFile.unsortedContainer.bytes⟩),
   (fun _ => .refused, ⟨⟨"A"⟩, Container.image DexFile.unsortedContainer.bytes⟩)]

set_option maxRecDepth 20000 in
/-- The class failed, and yet the machine was given bytes for it. -/
theorem not_honest_scarceLoads : ¬ twoHooks.Honest scarceLoads := by
  have hfailed : (twoHooks.onLoads .notReached scarceLoads).2 =
      .failed (.encode (.allocationFailed 188)) := by decide +kernel
  have hgiven : ∃ answer ∈ (twoHooks.onLoads .notReached scarceLoads).1, answer ≠ none := by
    decide +kernel
  obtain ⟨answer, hanswer, hne⟩ := hgiven
  exact fun hhonest => hne (hhonest.failed _ hfailed answer hanswer)

end Bridge

end DexWeave
