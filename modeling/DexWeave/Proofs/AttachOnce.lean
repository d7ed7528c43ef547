/-
  DexWeave/Proofs/AttachOnce.lean --- a process is instrumented once.

  WHAT THIS FILE IS FOR.  Attachments to a process share its breadcrumb.  As long as there is
  no record every attachment runs its batch, however many failed before; the first one that
  succeeds leaves the record; and from then on all others are answered from the record alone.

  WHAT IS LEFT OPEN.  Every attachment comes with a machine, a configuration and a payload of
  its own, and finds classes and files in any state: whatever happens to a process between two
  attachments is covered.

  HOW.  An attachment looks at the record first, so there are two equations for it, one for
  each answer.  A run is followed by induction on the attachments before it.
-/
import DexWeave.Attach
import DexWeave.Proofs.BatchProtocol

set_option autoImplicit false

namespace DexWeave

/-! ## One attachment -/

section Attach

variable {σ : Type} {vm : Vm σ} {config : AgentConfig} {payload : Bytes} {b : Breadcrumb}
  {state : σ} {files : FileTree}

/-- The batch of an attachment that finds no record. -/
def attachBatch (vm : Vm σ) (config : AgentConfig) (payload : Bytes) (state : σ)
    (files : FileTree) : Instrumenter.Outcome σ FileTree BatchReport InstrumentError :=
  let opened := config.openCache (PayloadHash.ofBytes payload) files
  (Instrumenter.new opened.1).instrument vm config.mode.transforms state opened.2

/-- The answer to a payload that finds a record. -/
def Breadcrumb.answer (recorded current : PayloadHash) : Except AttachError AttachOutcome :=
  if recorded = current then .ok .alreadyInstrumented
  else .error (.payloadHashMismatch ⟨recorded, current⟩)

/-- With a record, an attachment is its answer. -/
theorem attach_of_recorded (payload : Bytes) {recorded : PayloadHash}
    (h : b.recorded = some recorded) :
    ∃ notices, ∀ {τ : Type} (vm : Vm τ) (config : AgentConfig) (state : τ) (files : FileTree),
      attach vm config payload b state files =
        ⟨Breadcrumb.answer recorded (.ofBytes payload), notices, b, state, files⟩ := by
  by_cases hsame : recorded = .ofBytes payload
  · have hcheck : b.check (.ofBytes payload) = .ok .finished := by
      rw [Breadcrumb.check, h]
      exact if_pos hsame
    refine ⟨[], fun vm config state files => ?_⟩
    rw [attach, Breadcrumb.answer, if_pos hsame]
    simp only [hcheck]
  · have hcheck : b.check (.ofBytes payload) = .error ⟨recorded, .ofBytes payload⟩ := by
      rw [Breadcrumb.check, h]
      exact if_neg hsame
    refine ⟨[.unhandledFailure (PayloadHashMismatch.message ⟨recorded, .ofBytes payload⟩)],
      fun vm config state files => ?_⟩
    rw [attach, Breadcrumb.answer, if_neg hsame]
    simp only [hcheck]

/-- What an attachment makes of its batch. -/
def concludeAttach (payload : Bytes)
    (batch : Instrumenter.Outcome σ FileTree BatchReport InstrumentError) : Attachment σ :=
  match batch.result with
  | .ok r =>
    ⟨.ok (.instrumented r), batch.notices, ⟨some (.ofBytes payload)⟩, batch.state, batch.store⟩
  | .error e =>
    ⟨.error (.instrumentation e), attachNotices e batch.notices, .empty, batch.state, batch.store⟩

/-- Without a record, an attachment is what it makes of its batch. -/
theorem attach_empty (vm : Vm σ) (config : AgentConfig) (payload : Bytes) (state : σ)
    (files : FileTree) :
    attach vm config payload .empty state files =
      concludeAttach payload (attachBatch vm config payload state files) := rfl

variable {batch : Instrumenter.Outcome σ FileTree BatchReport InstrumentError}

theorem state_concludeAttach : (concludeAttach payload batch).state = batch.state := by
  rw [concludeAttach]
  split <;> rfl

theorem files_concludeAttach : (concludeAttach payload batch).files = batch.store := by
  rw [concludeAttach]
  split <;> rfl

theorem concludeAttach_instrumented_iff {r : BatchReport} :
    (concludeAttach payload batch).result = .ok (.instrumented r) ↔ batch.result = .ok r := by
  rw [concludeAttach]
  cases batch.result with
  | ok r' => simp only [Except.ok.injEq, AttachOutcome.instrumented.injEq]
  | error e => exact ⟨nofun, nofun⟩

theorem concludeAttach_cases (payload : Bytes)
    (batch : Instrumenter.Outcome σ FileTree BatchReport InstrumentError) :
    (∃ r, batch.result = .ok r ∧
      (concludeAttach payload batch).result = .ok (.instrumented r) ∧
      (concludeAttach payload batch).breadcrumb = ⟨some (.ofBytes payload)⟩) ∨
    ∃ e, batch.result = .error e ∧
      (concludeAttach payload batch).result = .error (.instrumentation e) ∧
      (concludeAttach payload batch).breadcrumb = .empty := by
  rw [concludeAttach]
  cases batch.result with
  | ok r => exact .inl ⟨r, rfl, rfl, rfl⟩
  | error e => exact .inr ⟨e, rfl, rfl, rfl⟩

theorem Breadcrumb.answer_ne_instrumented {recorded current : PayloadHash} {r : BatchReport} :
    answer recorded current ≠ .ok (.instrumented r) := by
  rw [answer]
  split <;> exact nofun

end Attach

/-! ## Attachments one after the other -/

section Attempts

variable {σ : Type}

/-- One attachment and what it finds. -/
structure Attempt (σ : Type) where
  /-- The machine. -/
  vm : Vm σ
  /-- The configuration. -/
  config : AgentConfig
  /-- The payload. -/
  payload : Bytes
  /-- The classes it finds. -/
  state : σ
  /-- The files it finds. -/
  files : FileTree

namespace Attempt

/-- The digest of the payload. -/
def hash (a : Attempt σ) : PayloadHash := .ofBytes a.payload

/-- Makes the attachment, with a record of the calls of the machine. -/
def run (a : Attempt σ) (b : Breadcrumb) : Attachment (σ × List VmCall) :=
  attach a.vm.logged a.config a.payload b (a.state, []) a.files

/-- The batch it makes if it finds no record. -/
def batch (a : Attempt σ) :
    Instrumenter.Outcome (σ × List VmCall) FileTree BatchReport InstrumentError :=
  attachBatch a.vm.logged a.config a.payload (a.state, []) a.files

/-- The breadcrumb that attachments leave, one after the other, in a new process. -/
def crumbAfter (attempts : List (Attempt σ)) : Breadcrumb :=
  attempts.foldl (fun b a => (a.run b).breadcrumb) .empty

end Attempt

/-- Whether the process was instrumented. -/
def Attachment.isInstrumented (a : Attachment σ) : Bool :=
  match a.result with
  | .ok (.instrumented _) => true
  | _ => false

theorem Attachment.isInstrumented_iff {a : Attachment σ} :
    a.isInstrumented = true ↔ ∃ r, a.result = .ok (.instrumented r) := by
  rw [isInstrumented]
  split
  · rename_i r h
    exact ⟨fun _ => ⟨r, h⟩, fun _ => rfl⟩
  · rename_i h
    exact ⟨nofun, fun ⟨r, hr⟩ => absurd hr (h r)⟩

/-- The attachments made one after the other, from a breadcrumb on. -/
def attachAll : Breadcrumb → List (Attempt σ) → List (Attachment (σ × List VmCall))
  | _, [] => []
  | b, a :: attempts => a.run b :: attachAll (a.run b).breadcrumb attempts

open Attempt

variable {attempts front back : List (Attempt σ)} {a : Attempt σ} {b : Breadcrumb}

theorem crumbAfter_concat (front : List (Attempt σ)) (a : Attempt σ) :
    crumbAfter (front ++ [a]) = (a.run (crumbAfter front)).breadcrumb := by
  rw [crumbAfter, List.foldl_append]
  rfl

/-- With a record, all that an attachment does is to answer. -/
theorem run_of_recorded {recorded : PayloadHash} (h : b.recorded = some recorded) :
    (a.run b).result = Breadcrumb.answer recorded a.hash ∧ (a.run b).breadcrumb = b ∧
      (a.run b).state = (a.state, []) ∧ (a.run b).files = a.files := by
  obtain ⟨notices, hanswer⟩ := attach_of_recorded a.payload h
  rw [run, hanswer, Attempt.hash]
  simp only [and_self]

theorem run_empty (a : Attempt σ) : a.run .empty = concludeAttach a.payload a.batch := rfl

/-- An attachment leaves the breadcrumb as it was, or there was no record, its batch succeeded,
and its payload is on record. -/
theorem run_cases (a : Attempt σ) (b : Breadcrumb) :
    (a.run b).breadcrumb = b ∧ (a.run b).isInstrumented = false ∨
    b = .empty ∧ (a.run b).isInstrumented = true ∧ (a.run b).breadcrumb = ⟨some a.hash⟩ := by
  cases hrecorded : b.recorded with
  | some recorded =>
    obtain ⟨hresult, hcrumb, -, -⟩ := run_of_recorded (a := a) hrecorded
    refine .inl ⟨hcrumb, Bool.eq_false_iff.mpr fun hinstrumented => ?_⟩
    obtain ⟨r, hr⟩ := Attachment.isInstrumented_iff.mp hinstrumented
    exact Breadcrumb.answer_ne_instrumented (hresult.symm.trans hr)
  | none =>
    obtain rfl : b = .empty := congrArg Breadcrumb.mk hrecorded
    rw [run_empty]
    rcases concludeAttach_cases a.payload a.batch with
      ⟨r, -, hresult, hcrumb⟩ | ⟨e, -, hresult, hcrumb⟩
    · exact .inr ⟨rfl, Attachment.isInstrumented_iff.mpr ⟨r, hresult⟩, hcrumb⟩
    · refine .inl ⟨hcrumb, Bool.eq_false_iff.mpr fun hinstrumented => ?_⟩
      obtain ⟨r, hr⟩ := Attachment.isInstrumented_iff.mp hinstrumented
      rw [hresult] at hr
      cases hr

/-- A record stays. -/
theorem foldl_of_recorded {recorded : PayloadHash} (h : b.recorded = some recorded)
    (attempts : List (Attempt σ)) :
    attempts.foldl (fun b a => (a.run b).breadcrumb) b = b := by
  induction attempts with
  | nil => rfl
  | cons a attempts ih =>
    rw [List.foldl_cons, (run_of_recorded h).2.1]
    exact ih

theorem countP_attachAll_of_recorded {recorded : PayloadHash} (h : b.recorded = some recorded)
    (attempts : List (Attempt σ)) :
    (attachAll b attempts).countP Attachment.isInstrumented = 0 := by
  induction attempts with
  | nil => rfl
  | cons a attempts ih =>
    have hone : (a.run b).breadcrumb = b ∧ (a.run b).isInstrumented = false :=
      (run_cases a b).resolve_right fun hmarked => by
        rw [hmarked.1] at h
        cases h
    rw [attachAll, hone.1, List.countP_cons, ih, hone.2]
    rfl

theorem countP_attachAll_le_one (b : Breadcrumb) (attempts : List (Attempt σ)) :
    (attachAll b attempts).countP Attachment.isInstrumented ≤ 1 := by
  induction attempts generalizing b with
  | nil => exact Nat.zero_le 1
  | cons a attempts ih =>
    rw [attachAll, List.countP_cons]
    rcases run_cases a b with ⟨hcrumb, hone⟩ | ⟨-, hone, hcrumb⟩
    · rw [hone]
      exact ih _
    · rw [countP_attachAll_of_recorded (congrArg Breadcrumb.recorded hcrumb), hone]
      exact Nat.le_refl 1

/-- As long as no attachment succeeds there is no record. -/
theorem foldl_of_not_instrumented
    (h : ∀ out ∈ attachAll b attempts, out.isInstrumented = false) :
    attempts.foldl (fun b a => (a.run b).breadcrumb) b = b := by
  induction attempts generalizing b with
  | nil => rfl
  | cons a attempts ih =>
    have hone := h _ List.mem_cons_self
    have hcrumb : (a.run b).breadcrumb = b :=
      ((run_cases a b).resolve_right fun hmarked =>
        Bool.false_ne_true (hone.symm.trans hmarked.2.1)).1
    have hrest := ih fun out hout => h out (List.mem_cons_of_mem _ hout)
    rw [List.foldl_cons, hrest, hcrumb]

/-- What holds of attachments made one after the other in a new process. -/
structure AttachedOnce (attempts : List (Attempt σ)) : Prop where
  /-- At most one of them instruments the process. -/
  atMostOne : (attachAll .empty attempts).countP Attachment.isInstrumented ≤ 1
  /-- It is one that finds no record and whose batch succeeds. -/
  instrumented : ∀ front a back, attempts = front ++ a :: back → ∀ r,
    (a.run (crumbAfter front)).result = .ok (.instrumented r) ↔
      crumbAfter front = .empty ∧ a.batch.result = .ok r
  /-- Only such a one leaves a record, which is that of its payload. -/
  marked : ∀ front a back, attempts = front ++ a :: back →
    (crumbAfter (front ++ [a]) = crumbAfter front ∧
      ∀ r, (a.run (crumbAfter front)).result ≠ .ok (.instrumented r)) ∨
    crumbAfter (front ++ [a]) = ⟨some a.hash⟩ ∧
      ∃ r, (a.run (crumbAfter front)).result = .ok (.instrumented r)
  /-- After it, an attachment is answered from the two digests, whatever machine, configuration,
  classes and files there are, and leaves them as they are without a call. -/
  afterwards : ∀ front a middle later back, attempts = front ++ a :: (middle ++ later :: back) →
    ∀ r, (a.run (crumbAfter front)).result = .ok (.instrumented r) →
    ∀ out, out = later.run (crumbAfter (front ++ a :: middle)) →
      (later.hash = a.hash → out.result = .ok .alreadyInstrumented) ∧
      (later.hash ≠ a.hash →
        out.result = .error (.payloadHashMismatch ⟨a.hash, later.hash⟩)) ∧
      out.state = (later.state, []) ∧ out.files = later.files ∧
      ∀ {τ : Type} (vm : Vm τ) (config : AgentConfig) (state : τ) (files : FileTree),
        attach vm config later.payload (crumbAfter (front ++ a :: middle)) state files =
          ⟨out.result, out.notices, out.breadcrumb, state, files⟩
  /-- Before it, no attachment is answered from a record. -/
  before : ∀ front a back, attempts = front ++ a :: back →
    (∀ out ∈ attachAll .empty front, ∀ r, out.result ≠ .ok (.instrumented r)) →
    (a.run (crumbAfter front)).result ≠ .ok .alreadyInstrumented ∧
      ∀ e, (a.run (crumbAfter front)).result ≠ .error (.payloadHashMismatch e)

/-- Every sequence of attachments to a new process instruments it once, if at all. -/
theorem attachedOnce_of_empty (attempts : List (Attempt σ)) : AttachedOnce attempts where
  atMostOne := countP_attachAll_le_one .empty attempts
  instrumented := by
    rintro front a back - r
    constructor
    · intro hresult
      have hinstrumented := Attachment.isInstrumented_iff.mpr ⟨r, hresult⟩
      rcases run_cases a (crumbAfter front) with ⟨-, hnot⟩ | ⟨hempty, -, -⟩
      · exact absurd (hnot.symm.trans hinstrumented) Bool.false_ne_true
      · rw [hempty, run_empty, concludeAttach_instrumented_iff] at hresult
        exact ⟨hempty, hresult⟩
    · rintro ⟨hempty, hbatch⟩
      rw [hempty, run_empty, concludeAttach_instrumented_iff]
      exact hbatch
  marked := by
    rintro front a back -
    rw [crumbAfter_concat]
    rcases run_cases a (crumbAfter front) with ⟨hcrumb, hnot⟩ | ⟨-, hinstrumented, hcrumb⟩
    · refine .inl ⟨hcrumb, fun r hr => ?_⟩
      have hinstrumented := Attachment.isInstrumented_iff.mpr ⟨r, hr⟩
      exact Bool.false_ne_true (hnot.symm.trans hinstrumented)
    · exact .inr ⟨hcrumb, Attachment.isInstrumented_iff.mp hinstrumented⟩
  afterwards := by
    rintro front a middle later back - r hresult out rfl
    have hinstrumented := Attachment.isInstrumented_iff.mpr ⟨r, hresult⟩
    have hcrumb : (crumbAfter (front ++ a :: middle)).recorded = some a.hash := by
      rcases run_cases a (crumbAfter front) with ⟨-, hnot⟩ | ⟨-, -, hmarked⟩
      · exact absurd (hnot.symm.trans hinstrumented) Bool.false_ne_true
      · rw [crumbAfter, List.foldl_append, List.foldl_cons, ← crumbAfter,
          foldl_of_recorded (congrArg Breadcrumb.recorded hmarked), hmarked]
    obtain ⟨hanswer, -, hstate, hfiles⟩ := run_of_recorded (a := later) hcrumb
    obtain ⟨notices, heverywhere⟩ := attach_of_recorded later.payload hcrumb
    refine ⟨fun hsame => ?_, fun hother => ?_, hstate, hfiles, fun vm config state files => ?_⟩
    · rw [hanswer, Breadcrumb.answer, if_pos hsame.symm]
    · rw [hanswer, Breadcrumb.answer, if_neg fun hsame => hother hsame.symm]
    · rw [heverywhere vm config state files, run, heverywhere]
  before := by
    rintro front a back - hnone
    have hempty : crumbAfter front = .empty := foldl_of_not_instrumented fun out hout => by
      rw [Bool.eq_false_iff, ne_eq, Attachment.isInstrumented_iff]
      exact fun ⟨r, hr⟩ => hnone out hout r hr
    rw [hempty, run_empty]
    rcases concludeAttach_cases a.payload a.batch with
      ⟨r, -, hresult, -⟩ | ⟨e, -, hresult, -⟩
    · rw [hresult]
      exact ⟨nofun, nofun⟩
    · rw [hresult]
      exact ⟨nofun, nofun⟩

end Attempts

end DexWeave
