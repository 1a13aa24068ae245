import Garcon.Library.Ascii

/-!
# Byte streams

`net::stream` is the interface the HTTP layer reads and writes through.  A
`Stream σ` is one implementation of it over a transport state `σ`: each method
returns its result with the state after the call.  A receive never reports more
bytes than the span it was offered, which the structure carries as a field.
-/

namespace Garcon
namespace Net

inductive IoStatus where
  | ok
  | closed
  | timeout
  | error
deriving DecidableEq, Repr

/-- `read_result` with the bytes it counts in place of their number. -/
structure ReadResult where
  status : IoStatus
  bytes : Bytes := []
deriving DecidableEq, Repr

/-- Timeouts are in milliseconds. -/
structure Stream (σ : Type) where
  isValid : σ → Bool
  setReceiveTimeout : Nat → σ → Bool × σ
  setSendTimeout : Nat → σ → Bool × σ
  handshake : σ → IoStatus × σ
  recvSome : Nat → σ → ReadResult × σ
  sendAll : Bytes → σ → IoStatus × σ
  recvSome_le : ∀ span s, (recvSome span s).1.bytes.length ≤ span

end Net
end Garcon
