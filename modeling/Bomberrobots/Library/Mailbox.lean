import Bomberrobots.Library.Except

/-! # Mailboxes

A process takes messages off the front of a queue that others append to. What it will be
once the queue is empty does not depend on when it takes them, so what holds of a process
that handles every message at once holds of one that lags behind.
-/

/-- A process, which is gone after a failure, with the messages it has not handled. -/
structure Mailbox (σ μ : Type) where
  process : Option σ
  queue : List μ

namespace Mailbox

variable {σ μ ε : Type}

def deliver (b : Mailbox σ μ) (msgs : List μ) : Mailbox σ μ :=
  { b with queue := b.queue ++ msgs }

def handle (f : σ → μ → Except ε σ) (b : Mailbox σ μ) : Mailbox σ μ :=
  match b.process, b.queue with
  | some s, msg :: queue => ⟨(f s msg).toOption, queue⟩
  | _, _ => b

/-- What the process will be once it has handled the queue. -/
def drained (f : σ → μ → Except ε σ) (b : Mailbox σ μ) : Option σ :=
  b.process.bind fun s => (b.queue.foldlM f s).toOption

variable {f : σ → μ → Except ε σ} {b : Mailbox σ μ} {msgs : List μ} {s s' : σ}

theorem ok_of_toOption {x : Except ε σ} (h : x.toOption = some s) : x = .ok s := by
  cases x with
  | error e => cases h
  | ok s' => rw [Option.some.inj h]

theorem handle_cases : b.handle f = b ∨ ∃ s msg queue, b = ⟨some s, msg :: queue⟩ ∧
    b.handle f = ⟨(f s msg).toOption, queue⟩ := by
  obtain ⟨_ | s, _ | ⟨msg, queue⟩⟩ := b
  · exact .inl rfl
  · exact .inl rfl
  · exact .inl rfl
  · exact .inr ⟨s, msg, queue, rfl, rfl⟩

theorem toOption_foldlM_append {msgs' : List μ} : ((msgs ++ msgs').foldlM f s).toOption =
    (msgs.foldlM f s).toOption.bind fun s => (msgs'.foldlM f s).toOption := by
  rw [List.foldlM_append]
  cases msgs.foldlM f s <;> rfl

/-- To handle a message now or later makes no difference. -/
theorem drained_handle : (b.handle f).drained f = b.drained f := by
  rcases handle_cases (b := b) (f := f) with h | ⟨s, msg, queue, rfl, h⟩
  · rw [h]
  · rw [h, drained, drained, Option.bind_some, List.foldlM_cons]
    cases f s msg <;> rfl

/-- What is delivered takes effect as if it were handled at once. -/
theorem drained_deliver : (b.deliver msgs).drained f =
    (b.drained f).bind fun s => (msgs.foldlM f s).toOption := by
  simp only [drained, deliver, Option.bind_assoc]
  apply Option.bind_congr
  intro s _
  exact toOption_foldlM_append

end Mailbox
