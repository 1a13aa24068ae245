import Garcon.Net.Stream

/-!
# The log of a stream

What a caller does with a stream is seen in its receives and sends.  `Runs` relates two
states of a stream with the calls between them, and a logged stream keeps their list.
-/

namespace Garcon
namespace Net

/-- A call that moves bytes, with what came of it. -/
inductive StreamOp where
  | received (result : ReadResult)
  | sent (wire : Bytes) (status : IoStatus)
deriving DecidableEq, Repr

namespace Stream

variable {σ : Type}

/-- The stream, with the list of its receives and sends so far. -/
def logged (client : Stream σ) : Stream (σ × List StreamOp) where
  isValid := fun x => client.isValid x.1
  setReceiveTimeout := fun ms x =>
    ((client.setReceiveTimeout ms x.1).1, ((client.setReceiveTimeout ms x.1).2, x.2))
  setSendTimeout := fun ms x =>
    ((client.setSendTimeout ms x.1).1, ((client.setSendTimeout ms x.1).2, x.2))
  handshake := fun x => ((client.handshake x.1).1, ((client.handshake x.1).2, x.2))
  recvSome := fun span x =>
    let result := (client.recvSome span x.1).1
    (result, ((client.recvSome span x.1).2, x.2 ++ [.received result]))
  sendAll := fun wire x =>
    let status := (client.sendAll wire x.1).1
    (status, ((client.sendAll wire x.1).2, x.2 ++ [.sent wire status]))
  recvSome_le := fun span x => client.recvSome_le span x.1

/-- The receives and sends by which a caller gets from one state to another. -/
inductive Runs (client : Stream σ) : σ → List StreamOp → σ → Prop where
  | done (s : σ) : Runs client s [] s
  | setReceiveTimeout {s s' : σ} {ops : List StreamOp} (ms : Nat)
      (h : Runs client (client.setReceiveTimeout ms s).2 ops s') : Runs client s ops s'
  | setSendTimeout {s s' : σ} {ops : List StreamOp} (ms : Nat)
      (h : Runs client (client.setSendTimeout ms s).2 ops s') : Runs client s ops s'
  | handshake {s s' : σ} {ops : List StreamOp}
      (h : Runs client (client.handshake s).2 ops s') : Runs client s ops s'
  | recvSome {s s' : σ} {ops : List StreamOp} (span : Nat)
      (h : Runs client (client.recvSome span s).2 ops s') :
      Runs client s (.received (client.recvSome span s).1 :: ops) s'
  | sendAll {s s' : σ} {ops : List StreamOp} (wire : Bytes)
      (h : Runs client (client.sendAll wire s).2 ops s') :
      Runs client s (.sent wire (client.sendAll wire s).1 :: ops) s'

theorem Runs.trans {client : Stream σ} {s s' s'' : σ} {ops ops' : List StreamOp}
    (h : client.Runs s ops s') (h' : client.Runs s' ops' s'') :
    client.Runs s (ops ++ ops') s'' := by
  induction h with
  | done s => exact h'
  | setReceiveTimeout ms _ ih => exact .setReceiveTimeout ms (ih h')
  | setSendTimeout ms _ ih => exact .setSendTimeout ms (ih h')
  | handshake _ ih => exact .handshake (ih h')
  | recvSome span _ ih => exact .recvSome span (ih h')
  | sendAll wire _ ih => exact .sendAll wire (ih h')

/-- Receives of one span, one after the other. -/
inductive Receives (client : Stream σ) (span : Nat) : σ → List ReadResult → σ → Prop where
  | done (s : σ) : Receives client span s [] s
  | recvSome {s s' : σ} {reads : List ReadResult}
      (h : Receives client span (client.recvSome span s).2 reads s') :
      Receives client span s ((client.recvSome span s).1 :: reads) s'

theorem Receives.of_cons {client : Stream σ} {span : Nat} {s s' : σ} {r : ReadResult}
    {reads : List ReadResult} (h : client.Receives span s (r :: reads) s') :
    (client.recvSome span s).1 = r ∧ client.Receives span (client.recvSome span s).2 reads s' := by
  generalize hall : r :: reads = all at h
  cases h with
  | done s => cases hall
  | recvSome h =>
      cases hall
      exact ⟨rfl, h⟩

theorem Receives.trans {client : Stream σ} {span : Nat} {s s' s'' : σ}
    {reads reads' : List ReadResult} (h : client.Receives span s reads s')
    (h' : client.Receives span s' reads' s'') :
    client.Receives span s (reads ++ reads') s'' := by
  induction h with
  | done s => exact h'
  | recvSome _ ih => exact .recvSome (ih h')

theorem Receives.runs {client : Stream σ} {span : Nat} {s s' : σ} {reads : List ReadResult}
    (h : client.Receives span s reads s') : client.Runs s (reads.map .received) s' := by
  induction h with
  | done s => exact .done s
  | recvSome _ ih => exact .recvSome span ih

/-- A logged stream has the calls of a run at the end of its log. -/
theorem Runs.log_eq {client : Stream σ} {x x' : σ × List StreamOp} {ops : List StreamOp}
    (h : client.logged.Runs x ops x') : x'.2 = x.2 ++ ops := by
  induction h with
  | done x => exact (List.append_nil x.2).symm
  | setReceiveTimeout ms _ ih => exact ih
  | setSendTimeout ms _ ih => exact ih
  | handshake _ ih => exact ih
  | recvSome span _ ih => rw [ih]; exact List.append_assoc _ _ _
  | sendAll wire _ ih => rw [ih]; exact List.append_assoc _ _ _

end Stream
end Net
end Garcon
