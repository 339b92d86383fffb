import Mathlib.Data.List.Basic

/-!
# A subscription to a log

A server publishes entries to a log, known here by their positions. A client that
connects is pushed the entries behind its cursor, or, when it has none, those that
are published from then on. What is pushed waits in a queue; handling an entry
makes it the cursor. `Gapless` is what keeps a client from losing entries: every
entry before the next one to be pushed, before a queued one or up to the cursor is
done with or queued itself.
-/

namespace TutaBridge.Std

structure Feed where
  /-- The entries the server has published. -/
  length : Nat
  /-- The next entry to be pushed. -/
  position : Nat
  /-- Pushed and not handled. -/
  queue : List Nat
  /-- The entry handled last. -/
  cursor : Option Nat

namespace Feed

def publish (feed : Feed) : Feed := { feed with length := feed.length + 1 }

def connect (feed : Feed) : Feed :=
  { feed with
    position := match feed.cursor with
      | none => feed.length
      | some handled => handled + 1 }

def push (feed : Feed) : Feed :=
  { feed with position := feed.position + 1, queue := feed.queue ++ [feed.position] }

def handle (feed : Feed) (entry : Nat) (rest : List Nat) : Feed :=
  { feed with queue := rest, cursor := some entry }

/-- Nothing is left to do about the entry but to drain the queue. -/
def Settled (Done : Nat → Prop) (feed : Feed) (entry : Nat) : Prop :=
  Done entry ∨ entry ∈ feed.queue

structure Gapless (Done : Nat → Prop) (feed : Feed) : Prop where
  passed : ∀ entry < feed.position, feed.Settled Done entry
  queued : ∀ later ∈ feed.queue, ∀ entry ≤ later, feed.Settled Done entry
  cursor : ∀ last ∈ feed.cursor, ∀ entry ≤ last, feed.Settled Done entry

namespace Gapless

variable {Done : Nat → Prop} {feed : Feed}

theorem publish (gapless : Gapless Done feed) : Gapless Done feed.publish :=
  ⟨gapless.passed, gapless.queued, gapless.cursor⟩

/-- What is done with may grow. -/
theorem mono {Later : Nat → Prop} (gapless : Gapless Done feed)
    (grows : ∀ entry, Done entry → Later entry) : Gapless Later feed where
  passed entry before := (gapless.passed entry before).imp_left (grows entry)
  queued later mem entry before := (gapless.queued later mem entry before).imp_left (grows entry)
  cursor last isLast entry before := (gapless.cursor last isLast entry before).imp_left (grows entry)

/-- Connecting without a cursor skips what was published and not pushed. -/
theorem connect (gapless : Gapless Done feed)
    (skipped : feed.cursor = none → ∀ entry, feed.position ≤ entry → entry < feed.length → Done entry) :
    Gapless Done feed.connect where
  passed entry before := by
    change feed.Settled Done entry
    simp only [Feed.connect] at before
    split at before
    next isNone =>
      by_cases pushed : entry < feed.position
      · exact gapless.passed entry pushed
      · exact .inl (skipped isNone entry (Nat.le_of_not_lt pushed) before)
    next last isLast => exact gapless.cursor last isLast entry (Nat.lt_succ_iff.mp before)
  queued := gapless.queued
  cursor := gapless.cursor

theorem push (gapless : Gapless Done feed) : Gapless Done feed.push := by
  have stays : ∀ entry, feed.Settled Done entry → feed.push.Settled Done entry :=
    fun entry settled => settled.imp_right (List.mem_append_left _)
  have upTo : ∀ entry ≤ feed.position, feed.push.Settled Done entry := by
    intro entry before
    rcases Nat.lt_or_eq_of_le before with earlier | rfl
    · exact stays entry (gapless.passed entry earlier)
    · exact .inr (List.mem_append_right _ List.mem_cons_self)
  refine ⟨fun entry before => upTo entry (Nat.lt_succ_iff.mp before), ?_, ?_⟩
  · intro later mem entry before
    rcases List.mem_append.mp mem with earlier | isNew
    · exact stays entry (gapless.queued later earlier entry before)
    · obtain rfl := List.mem_singleton.mp isNew
      exact upTo entry before
  · exact fun last isLast entry before => stays entry (gapless.cursor last isLast entry before)

/-- Handling the head of the queue, when that is done with it. -/
theorem handle {entry : Nat} {rest : List Nat} (gapless : Gapless Done feed)
    (head : feed.queue = entry :: rest) (handled : Done entry) : Gapless Done (feed.handle entry rest) := by
  have stays : ∀ other, feed.Settled Done other → (feed.handle entry rest).Settled Done other := by
    rintro other (done | queued)
    · exact .inl done
    · rw [head] at queued
      rcases List.mem_cons.mp queued with rfl | later
      · exact .inl handled
      · exact .inr later
  have wasQueued : entry ∈ feed.queue := head ▸ List.mem_cons_self
  refine ⟨fun other before => stays other (gapless.passed other before), ?_, ?_⟩
  · intro later mem other before
    exact stays other (gapless.queued later (head ▸ List.mem_cons_of_mem _ mem) other before)
  · intro last isLast other before
    obtain rfl : entry = last := Option.some.inj isLast
    exact stays other (gapless.queued entry wasQueued other before)

/-- With the queue drained, everything up to the cursor is done with. -/
theorem done_of_drained (gapless : Gapless Done feed) (drained : feed.queue = []) {last : Nat}
    (isLast : feed.cursor = some last) {entry : Nat} (before : entry ≤ last) : Done entry := by
  rcases gapless.cursor last isLast entry before with done | queued
  · exact done
  · rw [drained] at queued
    cases queued

end Gapless

end Feed

end TutaBridge.Std
