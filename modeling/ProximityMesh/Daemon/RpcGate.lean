/-
  Daemon/RpcGate.lean --- which requests of an RPC connection are dispatched.

  Source: `handle_connection`, `dispatch` and `method_hello` of crates/pim-daemon/src/rpc.rs.

  One task reads the lines of a connection and answers each before it reads the next.  The
  methods other than `rpc.hello` are any function of the daemon's state; what `serde_json` makes
  of a line or of the parameters is left open.  An answer that cannot be queued, because the
  writer has gone, ends the loop.
-/
import ProximityMesh.Core.Types

set_option autoImplicit false

namespace ProximityMesh.Daemon.Rpc

/-- A request; `V` is the type of JSON values. -/
structure RpcRequest (V : Type) where
  id : Option V
  method : String
  params : Option V

structure RpcError (V : Type) where
  code : Int
  message : String
  data : Option V

inductive Response (V : Type) where
  | result (id : Option V) (value : V)
  | error (id : Option V) (e : RpcError V)

/-- What the connection needs of JSON: whether a line is blank, the request in a line, the
version in the parameters of a hello, and the value that a hello is answered with. -/
class Serde (V : Type) where
  isBlank : String → Bool
  fromStr : String → Except String (RpcRequest V)
  helloVersion : V → Except String (Option UInt64)
  welcome : V

/-- What a connection does: it hands a request to `dispatch`, and it queues an answer. -/
inductive Event (V : Type) where
  | dispatched (req : RpcRequest V)
  | answered (req : Option (RpcRequest V)) (response : Response V)

def rpcVersion : UInt64 := 1

variable {V σ : Type} [Serde V]

def methodHello (params : Option V) : Except (RpcError V) V := do
  let version ← match params with
    | some v => (Serde.helloVersion v).mapError fun e =>
        ⟨-32602, s!"rpc.hello: invalid params: {e}", none⟩
    | none => pure none
  match version with
  | some ver =>
      if ver ≠ rpcVersion then
        throw ⟨-32001, s!"rpc.hello: client wants rpc_version={ver}, daemon speaks {rpcVersion}",
          none⟩
      else pure Serde.welcome
  | none => pure Serde.welcome

def dispatch (handler : σ → RpcRequest V → Except (RpcError V) V × σ) (daemon : σ)
    (req : RpcRequest V) : Except (RpcError V) V × σ :=
  if req.method = "rpc.hello" then (methodHello req.params, daemon) else handler daemon req

/-- The loop over the lines; each comes with whether its answer can still be queued. -/
def handleConnection (handler : σ → RpcRequest V → Except (RpcError V) V × σ) (daemon : σ)
    (handshakeDone : Bool) : List (String × Bool) → List (Event V)
  | [] => []
  | (line, writable) :: lines =>
      if Serde.isBlank V line then handleConnection handler daemon handshakeDone lines
      else
        match Serde.fromStr line with
        | .error e =>
            if writable then
              .answered none (.error none ⟨-32700, s!"parse error: {e}", none⟩) ::
                handleConnection handler daemon handshakeDone lines
            else []
        | .ok req =>
            if ¬ handshakeDone ∧ req.method ≠ "rpc.hello" then
              if writable then
                .answered (some req)
                    (.error req.id ⟨-32600, "rpc.hello must be the first request", none⟩) ::
                  handleConnection handler daemon handshakeDone lines
              else []
            else
              let (outcome, daemon) := dispatch handler daemon req
              let response := match outcome with
                | .ok result => .result req.id result
                | .error e => .error req.id e
              .dispatched req ::
                if writable then
                  .answered (some req) response ::
                    handleConnection handler daemon
                      (handshakeDone || req.method = "rpc.hello") lines
                else []

/-- The requests that the connection reads. -/
def requests (V : Type) [Serde V] : List (String × Bool) → List (RpcRequest V)
  | [] => []
  | (line, writable) :: lines =>
      if Serde.isBlank V line then requests V lines
      else
        let rest := if writable then requests V lines else []
        match Serde.fromStr line with
        | .error _ => rest
        | .ok req => req :: rest

/-- The answer to a hello is a success. -/
def Event.welcomes : Event V → Bool
  | .answered (some req) (.result _ _) => req.method = "rpc.hello"
  | _ => false

/-- A hello that `method_hello` accepts. -/
def RpcRequest.accepted (req : RpcRequest V) : Bool :=
  req.method = "rpc.hello" ∧ (methodHello req.params).isOk

/-- Before the first success of a hello only hellos are dispatched. -/
def Gated (events : List (Event V)) : Prop :=
  ∀ req, .dispatched req ∈ events.takeWhile (!·.welcomes) → req.method = "rpc.hello"

variable {handler : σ → RpcRequest V → Except (RpcError V) V × σ} {daemon : σ}
  {lines : List (String × Bool)}

omit [Serde V] in
@[simp] theorem welcomes_dispatched (req : RpcRequest V) :
    (Event.dispatched req).welcomes = false := rfl

omit [Serde V] in
@[simp] theorem welcomes_error (req : Option (RpcRequest V)) (id : Option V) (e : RpcError V) :
    (Event.answered req (.error id e)).welcomes = false := by
  cases req <;> rfl

/-- The flag only makes the requests before the first hello count as well. -/
theorem gated_handleConnection (handshakeDone : Bool) :
    Gated (handleConnection handler daemon handshakeDone lines) ↔
      ∀ req ∈ (if handshakeDone then requests V lines
        else (requests V lines).dropWhile (·.method ≠ "rpc.hello")).takeWhile (!·.accepted),
        req.method = "rpc.hello" := by
  unfold Gated
  induction lines generalizing daemon handshakeDone with
  | nil => simp [handleConnection, requests]
  | cons head lines ih =>
    obtain ⟨line, writable⟩ := head
    rw [handleConnection, requests]
    split
    · exact ih handshakeDone
    cases (Serde.fromStr line : Except String (RpcRequest V)) with
    | error e =>
      cases writable with
      | false => simp
      | true => simpa using ih handshakeDone
    | ok req =>
      by_cases hmethod : req.method = "rpc.hello"
      · cases hhello : methodHello req.params with
        | ok v =>
          have haccepted : req.accepted = true := by
            rw [RpcRequest.accepted, hmethod, hhello]
            rfl
          cases writable <;> simp [dispatch, hmethod, hhello, haccepted, Event.welcomes]
        | error e =>
          have hrefused : req.accepted = false := by
            rw [RpcRequest.accepted, hmethod, hhello]
            rfl
          cases writable with
          | false => simp [hmethod, hrefused]
          | true => simpa [dispatch, hmethod, hhello, hrefused] using ih true
      · cases handshakeDone with
        | false =>
          cases writable with
          | false => simp [hmethod]
          | true => simpa [hmethod] using ih false
        | true =>
          refine iff_of_false (fun h => hmethod (h req ?_)) fun h => hmethod (h req ?_)
          · simp
          · simp [RpcRequest.accepted, hmethod]

/-- For every connection: only hellos are dispatched before the first success of one exactly if,
among the requests that are read, nothing but hellos stands between the first hello and the
first one that is accepted. -/
theorem gated_iff (handler : σ → RpcRequest V → Except (RpcError V) V × σ) (daemon : σ)
    (lines : List (String × Bool)) : Gated (handleConnection handler daemon false lines) ↔
      ∀ req ∈ ((requests V lines).dropWhile (·.method ≠ "rpc.hello")).takeWhile (!·.accepted),
        req.method = "rpc.hello" :=
  gated_handleConnection false

/-- A hello that asks for version 99 is refused, and the next request is dispatched. -/
theorem refused_hello_opens_gate :
    letI : Serde Nat := ⟨fun _ => false, fun line => .ok ⟨none, line, some 99⟩,
      fun v => .ok (some (.ofNat v)), 0⟩
    ¬ Gated (handleConnection (fun _ req => (.ok req.method.length, ())) ()
      false [("rpc.hello", true), ("config.get", true)] : List (Event Nat)) := by
  let _ : Serde Nat := ⟨fun _ => false, fun line => .ok ⟨none, line, some 99⟩,
      fun v => .ok (some (.ofNat v)), 0⟩
  rw [gated_handleConnection]
  decide

end ProximityMesh.Daemon.Rpc
