import LedWall.Transport
import Mathlib.Data.List.Basic

/-!
# Transports that keep a record

Every call of a transport is written down, so that what a program hands over can be compared with
what it should hand over. A transport answers as its state tells; nothing is assumed of the answers.
-/

namespace LedWall

structure Call (τ : Type) where
  transport : τ
  datagram : List UInt8

structure Exchange (τ : Type) extends Call τ where
  answer : Except TransmissionError Unit

def Exchange.failed {τ : Type} (x : Exchange τ) : Bool :=
  match x.answer with
  | .ok () => false
  | .error _ => true

/-- Transports that answer every datagram. -/
class Responsive (τ : Type) where
  respond : τ → List UInt8 → Except TransmissionError Unit × τ

open Responsive

/-- Programs beside which the calls are written down, the latest last. -/
abbrev Recorded (τ : Type) : Type → Type := StateM (List (Call τ))

instance {τ : Type} [Responsive τ] : Transport (Recorded τ) τ where
  transmit t datagram := do
    modify (· ++ [⟨t, datagram⟩])
    return respond t datagram

class Fallible (τ : Type) where
  attempt : τ → List UInt8 → Option (Except TransmissionError Unit × τ)

open Fallible

instance {τ : Type} [Fallible τ] : Transport (OptionT (Recorded τ)) τ where
  transmit t datagram := OptionT.mk do
    modify (· ++ [⟨t, datagram⟩])
    return attempt t datagram

structure Sink where

instance : Fallible Sink where
  attempt sink _ := some (.ok (), sink)

theorem getElem?_concat_eq_some_iff {α : Type} {xs : List α} {last a : α} {i : Nat} :
    (xs ++ [last])[i]? = some a ↔ xs[i]? = some a ∨ i = xs.length ∧ last = a := by
  rcases Nat.lt_trichotomy i xs.length with hlt | rfl | hgt
  · rw [List.getElem?_append_left hlt]
    simp [Nat.ne_of_lt hlt]
  · simp
  · have hlength : (xs ++ [last]).length ≤ i := by
      rw [List.length_append]
      exact hgt
    rw [List.getElem?_eq_none hlength, List.getElem?_eq_none (Nat.le_of_lt hgt)]
    simp [Nat.ne_of_gt hgt]

section Yields

variable {τ α β : Type}

/-- Whatever is on the record already, the program returns `a` and adds `calls`. -/
def Yields (x : Recorded τ α) (a : α) (calls : List (Call τ)) : Prop :=
  ∀ record, x.run record = (a, record ++ calls)

theorem Yields.pure (a : α) : Yields (pure a : Recorded τ α) a [] := by
  intro record
  rw [List.append_nil]
  rfl

theorem Yields.bind {x : Recorded τ α} {a : α} {calls : List (Call τ)} (hx : Yields x a calls)
    {f : α → Recorded τ β} {b : β} {more : List (Call τ)} (hf : Yields (f a) b more) :
    Yields (x >>= f) b (calls ++ more) := by
  intro record
  rw [StateT.run_bind, hx record, ← List.append_assoc]
  exact hf (record ++ calls)

def Records (x : Recorded τ α) : Prop := ∃ a calls, Yields x a calls

def returned (x : Recorded τ α) : α := (x.run []).1

def made (x : Recorded τ α) : List (Call τ) := (x.run []).2

theorem Yields.returned_eq {x : Recorded τ α} {a : α} {calls : List (Call τ)}
    (h : Yields x a calls) : returned x = a := congrArg Prod.fst (h [])

theorem Yields.made_eq {x : Recorded τ α} {a : α} {calls : List (Call τ)}
    (h : Yields x a calls) : made x = calls := congrArg Prod.snd (h [])

theorem Records.yields {x : Recorded τ α} (h : Records x) : Yields x (returned x) (made x) := by
  obtain ⟨a, calls, h⟩ := h
  rwa [h.returned_eq, h.made_eq]

theorem yields_transmit [Responsive τ] (t : τ) (datagram : List UInt8) :
    Yields (Transport.transmit t datagram) (respond t datagram) [⟨t, datagram⟩] :=
  fun _ => rfl

theorem yields_attempt [Fallible τ] (t : τ) (datagram : List UInt8) :
    Yields (Transport.transmit t datagram : OptionT (Recorded τ) _).run (attempt t datagram)
      [⟨t, datagram⟩] :=
  fun _ => rfl

end Yields

/-- A transport has become another one through calls, each of which found it as the call before had
left it. None is left after a crash, and then no call can follow. -/
inductive Passed {τ : Type} [Fallible τ] (t : τ) : List (Call τ) → Option τ → Prop where
  | none : Passed t [] (some t)
  | more {calls : List (Call τ)} {u : τ} (h : Passed t calls (some u)) (datagram : List UInt8) :
      Passed t (calls ++ [⟨u, datagram⟩]) ((attempt u datagram).map Prod.snd)

section Exchanges

variable {τ : Type}

/-- A dialogue up to its first failure, which is the last exchange then. -/
def upToFailure (xs : List (Exchange τ)) : List (Exchange τ) :=
  xs.take (xs.findIdx Exchange.failed + 1)

def verdict (xs : List (Exchange τ)) : Except TransmissionError Unit :=
  ((xs.find? Exchange.failed).map Exchange.answer).getD (.ok ())

theorem upToFailure_of_failed {x : Exchange τ} (hx : x.failed) (xs : List (Exchange τ)) :
    upToFailure (x :: xs) = [x] := by
  rw [upToFailure, List.findIdx_cons, hx]
  rfl

theorem upToFailure_of_accepted {x : Exchange τ} (hx : x.failed = false) (xs : List (Exchange τ)) :
    upToFailure (x :: xs) = x :: upToFailure xs := by
  rw [upToFailure, List.findIdx_cons, hx]
  rfl

theorem verdict_of_failed {x : Exchange τ} (hx : x.failed) (xs : List (Exchange τ)) :
    verdict (x :: xs) = x.answer := by
  rw [verdict, List.find?_cons_of_pos hx]
  rfl

theorem verdict_of_accepted {x : Exchange τ} (hx : x.failed = false) (xs : List (Exchange τ)) :
    verdict (x :: xs) = verdict xs := by
  rw [verdict, List.find?_cons_of_neg (by simp [hx]), verdict]

theorem upToFailure_singleton (x : Exchange τ) : upToFailure [x] = [x] :=
  List.take_of_length_le (Nat.le_add_left 1 _)

theorem verdict_singleton (x : Exchange τ) : verdict [x] = x.answer := by
  obtain ⟨call, e | _⟩ := x
  · exact verdict_of_failed rfl []
  · exact verdict_of_accepted rfl []

end Exchanges

section Dialogue

variable {τ : Type} [Responsive τ]

/-- What would be said if every datagram were handed over, whatever the answers. -/
def dialogue (t : τ) : List (List UInt8) → List (Exchange τ)
  | [] => []
  | datagram :: more =>
      ⟨⟨t, datagram⟩, (respond t datagram).1⟩ :: dialogue (respond t datagram).2 more

theorem yields_transmitAll (t : τ) (datagrams : List (List UInt8)) :
    ∃ t', Yields (Transport.transmitAll t datagrams) (verdict (dialogue t datagrams), t')
      ((upToFailure (dialogue t datagrams)).map Exchange.toCall) := by
  induction datagrams generalizing t with
  | nil => exact ⟨t, .pure _⟩
  | cons datagram more ih =>
      rw [Transport.transmitAll, dialogue]
      have hfirst := yields_transmit t datagram
      generalize respond t datagram = reply at hfirst ⊢
      obtain ⟨e | _, t'⟩ := reply
      · have hfailed : (⟨⟨t, datagram⟩, .error e⟩ : Exchange τ).failed := rfl
        rw [upToFailure_of_failed hfailed, verdict_of_failed hfailed]
        exact ⟨t', hfirst.bind (.pure _)⟩
      · have haccepted : (⟨⟨t, datagram⟩, .ok ()⟩ : Exchange τ).failed = false := rfl
        obtain ⟨t'', hmore⟩ := ih t'
        rw [upToFailure_of_accepted haccepted, verdict_of_accepted haccepted]
        exact ⟨t'', hfirst.bind hmore⟩

end Dialogue

end LedWall
