import Neblina.Util.Socket

/-!
# `Server.Connection` — `Connection`, `TCPConnection` and `SSLConnection`

`TCPConnection::recv` and `SSLConnection::recv` make one read each and differ only in the call; so do the
two `send` loops. Each is a function of the results the calls return, which is all the code sees of the
kernel and of OpenSSL. `ConnectionOps` is the virtual interface `Session` uses, over an arbitrary state
`W` of everything outside the server's own objects.
-/

namespace Neblina

/-- A `Connection` object. `fd` is its only field; `id` is the identity of the object, so that two
    connections that get the same descriptor one after the other stay apart. -/
structure Connection where
  fd : SOCKET
  id : Nat
  deriving DecidableEq, Repr

/-- Plain `TCPConnection`s or `SSLConnection`s. -/
inductive Transport where
  | tcp
  | tls
  deriving DecidableEq, Repr

/-- `RECV_BUF_SZ` of both `recv` functions. -/
def recvBufSz : Nat := 16 * 1024

/-! ## `recv` -/

/-- The common body of the two `recv` functions, on the result of their one read. -/
def recvWith (r : RecvResult) : Except Abrupt Bytes :=
  match r with
  | .failed errno =>
      if errno = .EAGAIN then .ok []
      else .error (.throws (.runtimeError "recv error: " (some errno)))
  | .received bs => .ok bs

/-- `TCPConnection::recv` on the result of `::recv(fd_, buf, RECV_BUF_SZ, 0)`. -/
def TCPConnection.recv (r : RecvResult) : Except Abrupt Bytes := recvWith r

/-- `SSLConnection::recv` on the result of `SSL_read(ssl_, buf, RECV_BUF_SZ)`. -/
def SSLConnection.recv (r : RecvResult) : Except Abrupt Bytes := recvWith r

/-! ## `send` -/

/-- Where a `send` loop ended: how, the bytes the other side of the call accepted, and the results that
    were not used up. -/
structure SendOutcome where
  stop     : Option Abrupt
  accepted : Bytes
  left     : List SendResult
  deriving DecidableEq, Repr

/-- The common loop of the `send` functions: `while (pos < data.size())`, each pass offering the whole of
    `data` from its first byte. `rs` are the results of the successive calls; when they run out before
    the loop ends, the call is still running. -/
def sendLoop (data : Bytes) : List SendResult → Nat → Bytes → SendOutcome
  | rs, pos, done =>
      if pos < data.length then
        match rs with
        | [] => ⟨some .running, done, []⟩
        | .failed errno :: rs' =>
            ⟨some (.throws (.runtimeError "send error: " (some errno))), done, rs'⟩
        | .accepted r :: rs' => sendLoop data rs' (pos + r) (done ++ data.take r)
      else ⟨none, done, rs⟩

/-- `TCPConnection::send` on the results of its `::send(fd_, data.data(), data.size(), 0)` calls. -/
def TCPConnection.send (data : Bytes) (rs : List SendResult) : SendOutcome := sendLoop data rs 0 []

/-- `SSLConnection::send` on the results of its `SSL_write(ssl_, data.data(), (int) data.size())` calls. -/
def SSLConnection.send (data : Bytes) (rs : List SendResult) : SendOutcome := sendLoop data rs 0 []

/-- `send` of the connections over a transport. -/
def Transport.send : Transport → Bytes → List SendResult → SendOutcome
  | tcp => TCPConnection.send
  | tls => SSLConnection.send

theorem Transport.send_eq (t : Transport) (data : Bytes) (rs : List SendResult) :
    t.send data rs = sendLoop data rs 0 [] := by
  cases t with
  | tcp => rfl
  | tls => rfl

/-- Nothing to send: no call is made. -/
theorem sendLoop_nil (rs : List SendResult) (done : Bytes) :
    sendLoop [] rs 0 done = ⟨none, done, rs⟩ := by
  unfold sendLoop
  rfl

/-- A call that accepts the whole buffer ends the loop. -/
theorem sendLoop_whole {data : Bytes} (hd : data ≠ []) (rs : List SendResult) :
    sendLoop data (.accepted data.length :: rs) 0 [] = ⟨none, data, rs⟩ := by
  have hpos : 0 < data.length := List.length_pos_iff.mpr hd
  unfold sendLoop
  rw [if_pos hpos]
  unfold sendLoop
  simp

/-! ## The virtual interface -/

/-- `Connection::recv`, `Connection::send` and the destructor (`close_socket(fd_)`, for `SSLConnection`
    after `SSL_shutdown` and `SSL_free`), on the state of the outside. -/
structure ConnectionOps (W : Type) where
  recv  : Connection → EStateM Abrupt W Bytes
  send  : Connection → Bytes → EStateM Abrupt W Unit
  close : Connection → W → W

end Neblina
