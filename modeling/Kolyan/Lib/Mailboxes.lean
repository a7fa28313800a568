/-
# Bounded channels

A channel with many senders and one receiver, as an asynchronous runtime provides it: a
send does not wait and is refused by a full or a closed channel, a receive answers the
oldest item, that there is none now, or that there will be none.  A poll may also answer
that there is none although there is one (`Mpsc.Documented.pollRecv`): the runtime ends
the turn of a task so.  An implementation keeps a state of its own; `view` says what is in
it, and `Mailbox` is that view, with what its operations do.
-/

import Kolyan.Lib.Streams

namespace Mailboxes

open Streams (Poll)

/-- `TryRecvError`. -/
inductive TryRecvError where
  | empty
  | disconnected

/-- What is in a channel. -/
structure Mailbox (α : Type) where
  capacity : ℕ
  items : List α
  senders : ℕ
  isOpen : Bool

namespace Mailbox

variable {α : Type}

/-- A channel with one sender. -/
def new (capacity : ℕ) : Mailbox α := ⟨capacity, [], 1, true⟩

/-- Send an item, if there is room and a receiver. -/
def trySend (q : Mailbox α) (a : α) : Bool × Mailbox α :=
  if q.isOpen ∧ q.items.length < q.capacity then (true, { q with items := q.items ++ [a] }) else (false, q)

/-- Receive the oldest item. -/
def tryRecv (q : Mailbox α) : Except TryRecvError α × Mailbox α :=
  match q.items with
  | a :: rest => (.ok a, { q with items := rest })
  | [] => (.error (if q.isOpen ∧ q.senders ≠ 0 then .empty else .disconnected), q)

/-- Poll for the oldest item, by a task whose turn is not over. -/
def pollRecv (q : Mailbox α) : Poll (Option α) × Mailbox α :=
  match q.tryRecv with
  | (.ok a, q) => (.ready (some a), q)
  | (.error .disconnected, q) => (.ready none, q)
  | (.error .empty, q) => (.pending, q)

/-- A sender is cloned. -/
def cloneSender (q : Mailbox α) : Mailbox α := { q with senders := q.senders + 1 }

/-- A sender is dropped. -/
def dropSender (q : Mailbox α) : Mailbox α := { q with senders := q.senders - 1 }

/-- The receiver is dropped, with what it has not received. -/
def dropReceiver (q : Mailbox α) : Mailbox α := { q with items := [], isOpen := false }

end Mailbox

/-- An implementation of channels. -/
structure Mpsc (α : Type) where
  State : Type
  channel : ℕ → State
  trySend : State → α → Bool × State
  tryRecv : State → Except TryRecvError α × State
  pollRecv : State → Poll (Option α) × State
  cloneSender : State → State
  dropSender : State → State
  dropReceiver : State → State

variable {α : Type} {C : Mpsc α}

/-- The operations of an implementation do what its documentation says. -/
structure Mpsc.Documented (C : Mpsc α) (view : C.State → Mailbox α) : Prop where
  channel : ∀ capacity, view (C.channel capacity) = .new capacity
  trySend : ∀ s a, ((C.trySend s a).1, view (C.trySend s a).2) = (view s).trySend a
  tryRecv : ∀ s, ((C.tryRecv s).1, view (C.tryRecv s).2) = (view s).tryRecv
  pollRecv : ∀ s, ((C.pollRecv s).1, view (C.pollRecv s).2) = (view s).pollRecv ∨
    ((C.pollRecv s).1, view (C.pollRecv s).2) = (.pending, view s)
  cloneSender : ∀ s, view (C.cloneSender s) = (view s).cloneSender
  dropSender : ∀ s, view (C.dropSender s) = (view s).dropSender
  dropReceiver : ∀ s, view (C.dropReceiver s) = (view s).dropReceiver

/-- Channels that keep their view, and a list that says which of the polls to come find
the turn of their task over. -/
def mailboxes (α : Type) (spurious : List Bool) : Mpsc α where
  State := Mailbox α × List Bool
  channel capacity := (.new capacity, spurious)
  trySend s a := ((s.1.trySend a).1, ((s.1.trySend a).2, s.2))
  tryRecv s := (s.1.tryRecv.1, (s.1.tryRecv.2, s.2))
  pollRecv s := if s.2.headD false then (.pending, (s.1, s.2.tail)) else (s.1.pollRecv.1, (s.1.pollRecv.2, s.2.tail))
  cloneSender s := (s.1.cloneSender, s.2)
  dropSender s := (s.1.dropSender, s.2)
  dropReceiver s := (s.1.dropReceiver, s.2)

theorem mailboxes_documented (spurious : List Bool) : (mailboxes α spurious).Documented Prod.fst where
  channel _ := rfl
  trySend _ _ := rfl
  tryRecv _ := rfl
  pollRecv s := by
    by_cases h : s.2.headD false
    · exact .inr (by simp only [mailboxes, if_pos h])
    · exact .inl (by simp only [mailboxes, if_neg h])
  cloneSender _ := rfl
  dropSender _ := rfl
  dropReceiver _ := rfl

namespace Mpsc.Documented

variable {view : C.State → Mailbox α} (h : C.Documented view) {s : C.State} {a : α}

include h

theorem sent : (C.trySend s a).1 = true ∧ view (C.trySend s a).2 = { view s with items := (view s).items ++ [a] } ∨
    (C.trySend s a).1 = false ∧ view (C.trySend s a).2 = view s := by
  have hsend := h.trySend s a
  rw [Mailbox.trySend] at hsend
  split at hsend
  · exact .inl (Prod.mk.inj hsend)
  · exact .inr (Prod.mk.inj hsend)

theorem received_cons {rest : List α} (hitems : (view s).items = a :: rest) :
    (C.tryRecv s).1 = .ok a ∧ view (C.tryRecv s).2 = { view s with items := rest } := by
  have hrecv := h.tryRecv s
  rw [Mailbox.tryRecv, hitems] at hrecv
  exact Prod.mk.inj hrecv

theorem received_nil (hitems : (view s).items = []) :
    (C.tryRecv s).1 = .error (if (view s).isOpen ∧ (view s).senders ≠ 0 then .empty else .disconnected) ∧
      view (C.tryRecv s).2 = view s := by
  have hrecv := h.tryRecv s
  rw [Mailbox.tryRecv, hitems] at hrecv
  exact Prod.mk.inj hrecv

theorem polled_nil (hitems : (view s).items = []) (hopen : (view s).isOpen) :
    view (C.pollRecv s).2 = view s ∧
      ((C.pollRecv s).1 = .pending ∨ (C.pollRecv s).1 = .ready none ∧ (view s).senders = 0) := by
  obtain hpoll | hpoll := h.pollRecv s
  · by_cases hsenders : (view s).senders = 0
    · simp only [Mailbox.pollRecv, Mailbox.tryRecv, hitems, hopen, hsenders, ne_eq, not_true_eq_false, and_false,
        if_false, Prod.mk.injEq] at hpoll
      exact ⟨hpoll.2, .inr ⟨hpoll.1, hsenders⟩⟩
    · simp only [Mailbox.pollRecv, Mailbox.tryRecv, hitems, hopen, hsenders, ne_eq, not_false_eq_true, and_self,
        if_true, Prod.mk.injEq] at hpoll
      exact ⟨hpoll.2, .inl hpoll.1⟩
  · obtain ⟨hpending, hview⟩ := Prod.mk.inj hpoll
    exact ⟨hview, .inl hpending⟩

end Mpsc.Documented

end Mailboxes
