import Mathlib.Algebra.Group.Nat.Defs
import Neblina.Server.Connection

/-!
# `Client.Client` — `Client`, `TCPClient` and `SSLClient`: one call each way

`TCPClient` and `SSLClient` have the `recv` and the `send` of the server's connections, with one
difference: the size of a read is the caller's. `SSL_read` and `SSL_write` take an `int`, so the `size_t`
lengths are cast on the way (`castInt`).
-/

namespace Neblina

/-- The value of `(int) n` for a `size_t` `n`: modulo `2^32`, from `-2^31` to `2^31 - 1`. -/
def castInt (n : Nat) : Int := Int.bmod n (2 ^ 32)

/-- The cast never makes a length larger. -/
theorem castInt_le (n : Nat) : castInt n ≤ n := by
  unfold castInt Int.bmod
  simp only
  split
  · omega
  · omega

/-- Lengths an `int` can hold are left as they are. -/
theorem castInt_of_lt {n : Nat} (h : n < 2 ^ 31) : castInt n = n := by
  unfold castInt
  apply Int.bmod_eq_of_le
  · omega
  · omega

/-! ## `send` -/

/-- `TCPClient::send` on the results of its `::send(fd_, data.data(), data.size(), 0)` calls. -/
def TCPClient.send (data : Bytes) (rs : List SendResult) : SendOutcome := sendLoop data rs 0 []

/-- `SSLClient::send` on the results of its `SSL_write(ssl_, data.data(), (int) data.size())` calls. -/
def SSLClient.send (data : Bytes) (rs : List SendResult) : SendOutcome := sendLoop data rs 0 []

/-! ## `recv` -/

/-- `TCPClient::recv(n_bytes)` on the result of its `::recv(fd_, buf.data(), n_bytes, 0)`. -/
def TCPClient.recv (r : RecvResult) : Except Abrupt Bytes := recvWith r

/-- `SSLClient::recv(n_bytes)` on the result of its `SSL_read(ssl_, buf.data(), (int) n_bytes)`. -/
def SSLClient.recv (r : RecvResult) : Except Abrupt Bytes := recvWith r

namespace Transport

/-- The virtual `recv` of a client over a transport. -/
def clientRecv : Transport → RecvResult → Except Abrupt Bytes
  | tcp => TCPClient.recv
  | tls => SSLClient.recv

/-- The read behind `recv(m)` is refused, whatever the socket has: `SSL_read` returns -1 for a length that
    the cast made negative. -/
def refuses : Transport → Nat → Bool
  | tcp, _ => false
  | tls, m => castInt m < 0

/-- The number of bytes the read behind `recv(m)` can return: what it asks for, and none when it is
    refused. -/
def asks : Transport → Nat → Nat
  | tcp, m => m
  | tls, m => (castInt m).toNat

theorem asks_of_refuses {t : Transport} {m : Nat} (h : t.refuses m = true) : t.asks m = 0 := by
  cases t with
  | tcp => exact absurd h (by simp [refuses])
  | tls =>
      have hneg : castInt m < 0 := by simpa [refuses] using h
      show (castInt m).toNat = 0
      omega

theorem asks_le (t : Transport) (m : Nat) : t.asks m ≤ m := by
  cases t with
  | tcp => exact Nat.le_refl m
  | tls =>
      have := castInt_le m
      show (castInt m).toNat ≤ m
      omega

end Transport

end Neblina
