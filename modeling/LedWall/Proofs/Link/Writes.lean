import LedWall.Link.Basic
import LedWall.Proofs.Surface.Delivery

/-!
# What goes out on the network

A network can be watched like a transport: everything that is written to a socket is written down.
Opening a link writes nothing, and sending a tree writes datagrams of its panels only, each to the
socket of its own panel. Nothing is assumed of the answers of the network.
-/

namespace LedWall

variable {σ : Type} {m : Type → Type} [Monad m] [Network m σ]

instance : Network (Watched σ m) σ where
  connect endpoint := fun record => do
    let answer ← Network.connect endpoint
    return (answer, record)
  write socket datagram := fun record => do
    let answer ← Network.write socket datagram
    return (answer, record ++ [⟨socket, datagram⟩])

variable [LawfulMonad m]

namespace Network

theorem ensures_connect (endpoint : Endpoint) :
    Watched.Ensures (connect endpoint : Watched σ m (Except String (SocketAddress × σ)))
      fun _ calls => calls = [] := by
  intro record
  exact SatisfiesM.trivial.bind fun _ _ => .pure ⟨[], (List.append_nil record).symm, rfl⟩

theorem ensures_write (socket : σ) (datagram : List UInt8) :
    Watched.Ensures (write socket datagram : Watched σ m _) fun _ calls =>
      calls = [⟨socket, datagram⟩] := by
  intro record
  exact SatisfiesM.trivial.bind fun _ _ => .pure ⟨_, rfl, rfl⟩

end Network

/-- Something is opened without a write, and what comes of it is as it should be. -/
structure Quietly {ε α : Type} (P : α → Prop) (opened : Except ε α) (calls : List (Call σ)) :
    Prop where
  quiet : calls = []
  good : ∀ a, opened = .ok a → P a

theorem Quietly.error {ε α : Type} {P : α → Prop} (e : ε) :
    Quietly P (.error e) ([] : List (Call σ)) := ⟨rfl, nofun⟩

theorem Quietly.ok {ε α : Type} {P : α → Prop} {a : α} (h : P a) :
    Quietly P (.ok a : Except ε α) ([] : List (Call σ)) := by
  refine ⟨rfl, fun b hb => ?_⟩
  obtain rfl := Except.ok.inj hb
  exact h

theorem Link.ensures_connect (endpoint : Endpoint) :
    Watched.Ensures (connect endpoint : Watched σ m (Except SurfaceError (Link σ)))
      (Quietly fun l => l.endpoint = endpoint ∧ ∃ socket, l.socket = some socket) := by
  rw [connect]
  refine (Network.ensures_connect endpoint).bind fun answer calls hcalls => ?_
  obtain rfl := hcalls
  obtain reason | ⟨peer, socket⟩ := answer
  · exact .pure (.error _)
  · exact .pure (.ok ⟨rfl, socket, rfl⟩)

/-- A link has written some datagrams to its socket, and all of them in order if all went well. -/
structure Link.Writes (l : Link σ) (datagrams : List (List UInt8)) (good : Prop)
    (calls : List (Call σ)) : Prop where
  each : ∀ call ∈ calls, l.socket = some call.transport ∧ call.datagram ∈ datagrams
  all : good → calls.map Call.datagram = datagrams

/-- What a link writes when it is to send a datagram: nothing if the datagram is too long or the link
is closed, and else the datagram, once. -/
def Link.written (l : Link σ) (datagram : List UInt8) : List (Call σ) :=
  if maxDatagramSize < datagram.length then [] else (l.socket.map (⟨·, datagram⟩)).toList

theorem Link.mem_written {l : Link σ} {datagram : List UInt8} {call : Call σ}
    (h : call ∈ l.written datagram) :
    l.socket = some call.transport ∧ call.datagram = datagram ∧ l.written datagram = [call] := by
  rw [written] at h ⊢
  split at h
  next => cases h
  next hfits =>
    rw [Option.mem_toList, Option.map_eq_some_iff] at h
    obtain ⟨socket, hsocket, rfl⟩ := h
    refine ⟨hsocket, rfl, ?_⟩
    rw [if_neg hfits, hsocket]
    rfl

theorem Link.ensures_transmit_written (l : Link σ) (datagram : List UInt8) :
    Watched.Ensures (l.transmit datagram : Watched σ m _) fun answer calls =>
      calls = l.written datagram ∧ (answer = .ok () → calls ≠ []) := by
  rw [transmit, written]
  split
  · exact .pure ⟨rfl, by rintro ⟨⟩⟩
  · cases l.socket with
    | none => exact .pure ⟨rfl, by rintro ⟨⟩⟩
    | some socket =>
        refine (Network.ensures_write socket datagram).bind fun answer calls hcalls => ?_
        obtain rfl := hcalls
        cases answer with
        | error reason => exact .pure ⟨rfl, by rintro ⟨⟩⟩
        | ok sent =>
            dsimp only
            split
            · exact .pure ⟨rfl, fun _ => List.cons_ne_nil _ _⟩
            · exact .pure ⟨rfl, by rintro ⟨⟩⟩

theorem Link.ensures_transmit (l : Link σ) (datagram : List UInt8) :
    Watched.Ensures (l.transmit datagram : Watched σ m _) fun answer calls =>
      l.Writes [datagram] (answer = .ok ()) calls := by
  refine (l.ensures_transmit_written datagram).imp fun answer calls hcalls => ?_
  obtain ⟨rfl, hsent⟩ := hcalls
  constructor
  case each =>
    intro call hcall
    obtain ⟨hsocket, hdatagram, -⟩ := mem_written hcall
    exact ⟨hsocket, List.mem_singleton.mpr hdatagram⟩
  case all =>
    intro hok
    obtain ⟨call, hcall⟩ := List.exists_mem_of_ne_nil _ (hsent hok)
    obtain ⟨-, hdatagram, hwritten⟩ := mem_written hcall
    rw [hwritten, List.map_singleton, hdatagram]

theorem Link.ensures_transmitAll (l : Link σ) (datagrams : List (List UInt8)) :
    Watched.Ensures (Transport.transmitAll l datagrams : Watched σ m _) fun answer calls =>
      l.Writes datagrams (answer.1 = .ok ()) calls := by
  induction datagrams with
  | nil =>
      rw [Transport.transmitAll]
      exact .pure ⟨List.forall_mem_nil _, fun _ => rfl⟩
  | cons datagram datagrams ih =>
      rw [Transport.transmitAll]
      have hfirst : Watched.Ensures (Transport.transmit l datagram : Watched σ m _)
          fun answer calls => answer.2 = l ∧ l.Writes [datagram] (answer.1 = .ok ()) calls := by
        refine (l.ensures_transmit datagram).bind fun answer calls hcalls => .pure ⟨rfl, ?_⟩
        rwa [List.append_nil]
      refine hfirst.bind fun answer calls hcalls => ?_
      obtain ⟨hlink, hcalls⟩ := hcalls
      have heach : ∀ call ∈ calls,
          l.socket = some call.transport ∧ call.datagram ∈ datagram :: datagrams := by
        intro call hcall
        obtain ⟨hsocket, hdatagram⟩ := hcalls.each call hcall
        exact ⟨hsocket, List.mem_singleton.mp hdatagram ▸ List.mem_cons_self⟩
      obtain ⟨e | _, l'⟩ := answer
      · refine .pure ⟨?_, by rintro ⟨⟩⟩
        rwa [List.append_nil]
      · obtain rfl : l' = l := hlink
        refine ih.imp fun _ more hmore => ⟨List.forall_mem_append.mpr ⟨heach, ?_⟩, fun hok => ?_⟩
        · intro call hcall
          obtain ⟨hsocket, hdatagram⟩ := hmore.each call hcall
          exact ⟨hsocket, List.mem_cons_of_mem _ hdatagram⟩
        · rw [List.map_append, hcalls.all rfl, hmore.all hok, List.singleton_append]

/-- A write carries one of the datagrams of a panel to its socket. -/
structure Panel.Emits (p : Panel (Link σ)) (call : Call σ) : Prop where
  socket : p.transport.socket = some call.transport
  datagram : ∃ datagrams, p.datagrams = .ok datagrams ∧ call.datagram ∈ datagrams

def Panel.AllOf (p : Panel (Link σ)) (calls : List (Call σ)) : Prop :=
  ∃ datagrams, p.datagrams = .ok datagrams ∧ ∀ datagram ∈ datagrams, ∃ call ∈ calls,
    p.transport.socket = some call.transport ∧ call.datagram = datagram

structure OnWire (panels : List (Panel (Link σ))) (good : Prop) (calls : List (Call σ)) :
    Prop where
  each : ∀ call ∈ calls, ∃ p ∈ panels, p.Emits call
  all : good → ∀ p ∈ panels, p.AllOf calls

theorem Panel.AllOf.mono {p : Panel (Link σ)} {calls more : List (Call σ)} (h : p.AllOf calls)
    (hsub : calls ⊆ more) : p.AllOf more := by
  obtain ⟨datagrams, hd, hall⟩ := h
  refine ⟨datagrams, hd, fun datagram hmem => ?_⟩
  obtain ⟨call, hcall, hwritten⟩ := hall datagram hmem
  exact ⟨call, hsub hcall, hwritten⟩

theorem OnWire.append {panels others : List (Panel (Link σ))} {good good' : Prop}
    {calls more : List (Call σ)} (h : OnWire panels good calls) (hmore : OnWire others good' more) :
    OnWire (panels ++ others) (good ∧ good') (calls ++ more) where
  each := by
    refine List.forall_mem_append.mpr ⟨?_, ?_⟩
    · intro call hcall
      obtain ⟨p, hp, hemits⟩ := h.each call hcall
      exact ⟨p, List.mem_append_left _ hp, hemits⟩
    · intro call hcall
      obtain ⟨p, hp, hemits⟩ := hmore.each call hcall
      exact ⟨p, List.mem_append_right _ hp, hemits⟩
  all := by
    intro hgood
    refine List.forall_mem_append.mpr ⟨?_, ?_⟩
    · intro p hp
      exact (h.all hgood.1 p hp).mono (List.subset_append_left _ _)
    · intro p hp
      exact (hmore.all hgood.2 p hp).mono (List.subset_append_right _ _)

theorem OnWire.gathers : Gathers (@OnWire σ) where
  nil := fun _ => ⟨List.forall_mem_nil _, fun _ => List.forall_mem_nil _⟩
  imp := fun h hgood => ⟨h.each, h.all ∘ hgood⟩
  append := OnWire.append

theorem Panel.ensures_writes (p : Panel (Link σ)) :
    Watched.Ensures (p.send : Watched σ m _) fun r calls => OnWire [p] (r.1 = .ok ()) calls := by
  rw [send]
  cases hd : p.datagrams with
  | error e => exact .pure ⟨List.forall_mem_nil _, by rintro ⟨⟩⟩
  | ok datagrams =>
      refine (Link.ensures_transmitAll p.transport datagrams).bind fun answer calls hcalls => ?_
      obtain ⟨result, l⟩ := answer
      refine .pure ?_
      rw [List.append_nil]
      constructor
      case each =>
        intro call hcall
        obtain ⟨hsocket, hdatagram⟩ := hcalls.each call hcall
        exact ⟨p, List.mem_singleton_self p, hsocket, datagrams, hd, hdatagram⟩
      case all =>
        intro hok q hq
        obtain rfl := List.mem_singleton.mp hq
        obtain rfl : result = .ok () := by
          cases result with
          | error e => cases hok
          | ok _ => rfl
        refine ⟨datagrams, hd, fun datagram hmem => ?_⟩
        rw [← hcalls.all rfl] at hmem
        obtain ⟨call, hcall, rfl⟩ := List.mem_map.mp hmem
        exact ⟨call, hcall, (hcalls.each call hcall).1, rfl⟩

/-- While a tree is sent, its panels write, and each writes everything if the sending succeeds. -/
theorem Surface.ensures_writes (s : Surface (Link σ)) :
    Watched.Ensures (s.send : Watched σ m _) fun r calls =>
      OnWire s.panels (r.1 = .ok ()) calls :=
  ensures_gathered OnWire.gathers fun p _ => p.ensures_writes

end LedWall
