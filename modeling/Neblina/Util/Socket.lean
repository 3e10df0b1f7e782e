/-!
# `Util.Socket` — sockets, bytes and the ways a call can end

The vocabulary of `util/socket.hh` and `util/exceptions`: descriptors, byte strings, the results of the
socket calls, and the exceptions the code throws. A call that does not return normally ends in one of
three ways (`Abrupt`); the state it leaves behind is kept by the surrounding `EStateM`.
-/

namespace Neblina

/-- A descriptor (`int` on POSIX, `UINT_PTR` on Windows). `INVALID_SOCKET` is never a value of it: the
    calls that can return it are modelled with their failure as a separate result. -/
abbrev SOCKET := Nat

/-- The contents of a `std::string`. -/
abbrev Bytes := List UInt8

/-- The values of `errno` that the calls of the server can end with (`WSAEWOULDBLOCK` is `EAGAIN`). -/
inductive Errno where
  | EAGAIN
  | EINTR
  | EBADF
  | EEXIST
  | ENOENT
  | ECONNRESET
  | ECONNABORTED
  | EPIPE
  | other (code : Nat)
  deriving DecidableEq, Repr

/-- An exception object. `what` is the text of the source; the message is `what` followed by the
    `strerror` of `errno` where the source appends one. -/
inductive Exc where
  | runtimeError (what : String) (errno : Option Errno)
  | nonRecoverable (what : String) (errno : Option Errno)
  deriving DecidableEq, Repr

/-- How a call ends other than by returning. -/
inductive Abrupt where
  | throws (e : Exc)
  /-- `fd % threads_.size()` with no thread at all. -/
  | divisionByZero
  /-- The results handed out so far do not bring the call to an end: it is still running. -/
  | running
  deriving DecidableEq, Repr

/-- The result of one `::recv` or `SSL_read`: `received bs` is a return value of `bs.length` (zero at the
    end of the stream), `failed` a negative one. -/
inductive RecvResult where
  | received (bs : Bytes)
  | failed (errno : Errno)
  deriving DecidableEq, Repr

/-- The result of one `::send` or `SSL_write`: `accepted r` is a return value `r ≥ 0`. -/
inductive SendResult where
  | accepted (r : Nat)
  | failed (errno : Errno)
  deriving DecidableEq, Repr

end Neblina
