import Neblina.Lib.Transition
import Neblina.Util.Socket

/-!
# `Client.Handshake` — the constructor of `SSLClient`

The constructor connects (the base class), makes sure the static `ctx_` exists (`initialize_ctx`, under a
mutex), and repeats `SSL_connect` while it returns a negative value with `SSL_ERROR_WANT_READ`. It looks at
nothing else: every other result, successful or not, ends the constructor normally.

* `handshakeComplete_iff` — a constructed client has completed its handshake exactly when the first result that
  does not ask for more input is a success;
* `contexts_loaded_iff` — over any history of constructions, `ctx_` is never used half-initialised exactly when
  no construction that finds `ctx_` empty fails to load the CA store: the failed context stays in `ctx_`.
-/

namespace Neblina

/-- How a constructor, or a call it makes, ends. `crashed` is a null dereference in OpenSSL. -/
inductive Exit where
  | returned
  | threw (e : Exc)
  | crashed
  | running
  deriving DecidableEq, Repr

/-- The codes of `SSL_get_error`. -/
inductive SslError where
  | wantRead
  | wantWrite
  | syscall
  | ssl
  | zeroReturn
  deriving DecidableEq, Repr

/-- The result of one `SSL_connect`: 1, or 0 or a negative value with the code of `SSL_get_error`. -/
inductive ConnectResult where
  | done
  | zero (err : SslError)
  | negative (err : SslError)
  deriving DecidableEq, Repr

namespace ConnectResult

/-- The handshake can go on: the call is to be repeated. -/
def retryable : ConnectResult → Bool
  | done => false
  | zero err | negative err => err = .wantRead || err = .wantWrite

/-- The handshake has failed for good. -/
def fatal : ConnectResult → Bool
  | done => false
  | zero err | negative err => !(err = .wantRead || err = .wantWrite)

end ConnectResult

namespace SSLClient

/-- The `try_again` loop, on the results of the successive `SSL_connect` calls: how it ends, and the results
    of the calls it made. -/
def handshake : List ConnectResult → Exit × List ConnectResult
  | [] => (.running, [])
  | .negative .wantRead :: rs => ((handshake rs).1, .negative .wantRead :: (handshake rs).2)
  | r :: _ => (.returned, [r])

/-! ## `ctx_` -/

/-- An `SSL_CTX`: whether the system's CA store was loaded into it. -/
structure Ctx where
  loaded : Bool
  deriving DecidableEq, Repr

/-- `SSLClient::initialize_ctx` on the static `ctx_`, by whether `SSL_CTX_new` and
    `SSL_CTX_set_default_verify_paths` succeed. The second is called on what the first returned, also when
    that is null. -/
def initializeCtx (newOk verifyOk : Bool) (ctx : Option Ctx) : Exit × Option Ctx :=
  match ctx with
  | some c => (.returned, some c)
  | none =>
      match (if newOk then some ⟨false⟩ else none : Option Ctx) with
      | none => (.crashed, none)
      | some c =>
          if verifyOk then (.returned, some ⟨true⟩)
          else (.threw (.nonRecoverable "Failed to load system CA store" none), some c)

/-! ## The constructor -/

/-- What the outside decides in one construction: the end of `open_connection`, the two calls of
    `initialize_ctx`, and the results of `SSL_connect`. -/
structure Attempt where
  opened   : Except Exc SOCKET
  newOk    : Bool
  verifyOk : Bool
  connects : List ConnectResult

/-- `SSLClient::SSLClient`: how it ends, `ctx_` after it, and the results of the `SSL_connect` calls made. -/
def construct (a : Attempt) (ctx : Option Ctx) : Exit × Option Ctx × List ConnectResult :=
  match a.opened with
  | .error e => (.threw e, ctx, [])
  | .ok _ =>
      match initializeCtx a.newOk a.verifyOk ctx with
      | (.returned, ctx') => ((handshake a.connects).1, ctx', (handshake a.connects).2)
      | (exit, ctx') => (exit, ctx', [])

/-! ## The handshake -/

/-- **The handshake was carried through**: a normal return comes after a success, a retryable result is not
    the last, and a fatal one is the last and leads to an exception. -/
structure HandshakeComplete (exit : Exit) (made : List ConnectResult) : Prop where
  returned : exit = .returned → ∃ pre, made = pre ++ [.done]
  retried  : ∀ pre r, made = pre ++ [r] → r.retryable → exit = .running
  threw    : ∀ pre r post, made = pre ++ r :: post → r.fatal → post = [] ∧ ∃ e, exit = .threw e

/-- The first result other than a negative one with `SSL_ERROR_WANT_READ`, if any, is a success. -/
def FirstIsDone : List ConnectResult → Prop
  | [] => True
  | .negative .wantRead :: rs => FirstIsDone rs
  | r :: _ => r = .done

/-- Induction over the results, by what the loop does with the first. -/
theorem handshake_rec {motive : List ConnectResult → Prop} (out : motive [])
    (again : ∀ rs, motive rs → motive (.negative .wantRead :: rs))
    (last : ∀ r rs, r ≠ .negative .wantRead → handshake (r :: rs) = (.returned, [r]) →
      (FirstIsDone (r :: rs) ↔ r = .done) → motive (r :: rs)) : ∀ rs, motive rs := by
  intro rs
  induction rs with
  | nil => exact out
  | cons r rs ih =>
      cases r with
      | done => exact last .done rs (by simp) rfl Iff.rfl
      | zero err => exact last (.zero err) rs (by simp) rfl Iff.rfl
      | negative err =>
          cases err with
          | wantRead => exact again rs ih
          | wantWrite => exact last _ rs (by simp) rfl Iff.rfl
          | syscall => exact last _ rs (by simp) rfl Iff.rfl
          | ssl => exact last _ rs (by simp) rfl Iff.rfl
          | zeroReturn => exact last _ rs (by simp) rfl Iff.rfl

/-- A list of one element has no other place for an element. -/
theorem singleton_eq_append {r r' : ConnectResult} {pre post : List ConnectResult}
    (h : [r] = pre ++ r' :: post) : r = r' ∧ post = [] := by
  cases pre with
  | nil => exact ⟨(List.cons.inj h).1, (List.cons.inj h).2.symm⟩
  | cons x pre => exact absurd (List.cons.inj h).2 (by simp)

/-- The loop that has made no call waits for its first result. -/
theorem running_of_made_nil {rs : List ConnectResult} (h : (handshake rs).2 = []) :
    (handshake rs).1 = .running := by
  induction rs using handshake_rec with
  | out => rfl
  | again rs ih => exact absurd h (by simp [handshake])
  | last r rs hr hlast hfirst =>
      rw [hlast] at h
      exact absurd h (by simp)

/-- Nothing is asked of a constructor that made no call, except that it does not return. -/
theorem handshakeComplete_nil {exit : Exit} (h : exit ≠ .returned) : HandshakeComplete exit [] := by
  refine ⟨fun hreturned => absurd hreturned h, fun pre r hmade => ?_, fun pre r post hmade => ?_⟩
  · exact absurd hmade.symm (by simp)
  · exact absurd hmade.symm (by simp)

/-- One more result that asks for input, in front of a loop that goes on. -/
theorem handshakeComplete_again {exit : Exit} {made : List ConnectResult} (hnil : made = [] → exit = .running) :
    HandshakeComplete exit (.negative .wantRead :: made) ↔ HandshakeComplete exit made := by
  constructor
  · intro h
    refine ⟨fun hreturned => ?_, fun pre r hmade => ?_, fun pre r post hmade => ?_⟩
    · obtain ⟨pre, hpre⟩ := h.returned hreturned
      cases pre with
      | nil => exact absurd (List.cons.inj hpre).1 (by simp)
      | cons x pre => exact ⟨pre, (List.cons.inj hpre).2⟩
    · exact h.retried (.negative .wantRead :: pre) r (by rw [hmade]; rfl)
    · exact h.threw (.negative .wantRead :: pre) r post (by rw [hmade]; rfl)
  · intro h
    refine ⟨fun hreturned => ?_, fun pre r hmade => ?_, fun pre r post hmade => ?_⟩
    · obtain ⟨pre, hpre⟩ := h.returned hreturned
      exact ⟨.negative .wantRead :: pre, by rw [hpre]; rfl⟩
    · cases pre with
      | nil => exact fun _ => hnil (List.cons.inj hmade).2
      | cons x pre => exact h.retried pre r (List.cons.inj hmade).2
    · cases pre with
      | nil =>
          -- the result in front is not fatal
          intro hfatal
          rw [← (List.cons.inj hmade).1] at hfatal
          exact absurd hfatal (by decide)
      | cons x pre => exact h.threw pre r post (List.cons.inj hmade).2

/-- The loop that ends after one result returns, whatever the result is. -/
theorem handshakeComplete_last {r : ConnectResult} : HandshakeComplete .returned [r] ↔ r = .done := by
  constructor
  · intro h
    obtain ⟨pre, hpre⟩ := h.returned rfl
    exact (singleton_eq_append hpre).1
  · rintro rfl
    refine ⟨fun _ => ⟨[], rfl⟩, fun pre r hmade hretryable => ?_, fun pre r post hmade hfatal => ?_⟩
    · rw [← (singleton_eq_append hmade).1] at hretryable
      exact absurd hretryable (by decide)
    · rw [← (singleton_eq_append hmade).1] at hfatal
      exact absurd hfatal (by decide)

theorem handshakeComplete_handshake (rs : List ConnectResult) :
    HandshakeComplete (handshake rs).1 (handshake rs).2 ↔ FirstIsDone rs := by
  induction rs using handshake_rec with
  | out => exact ⟨fun _ => trivial, fun _ => handshakeComplete_nil (by decide)⟩
  | again rs ih => exact (handshakeComplete_again running_of_made_nil).trans ih
  | last r rs hr hlast hfirst =>
      rw [hlast, hfirst]
      exact handshakeComplete_last

/-- The construction gets as far as the handshake. -/
def Reaches (a : Attempt) (ctx : Option Ctx) : Prop :=
  (∃ fd, a.opened = .ok fd) ∧ (ctx.isSome ∨ a.newOk = true ∧ a.verifyOk = true)

/-- The exits of `initialize_ctx`. -/
theorem initializeCtx_returned {newOk verifyOk : Bool} {ctx : Option Ctx} :
    (initializeCtx newOk verifyOk ctx).1 = .returned ↔ ctx.isSome ∨ newOk = true ∧ verifyOk = true := by
  cases ctx with
  | some c => simp [initializeCtx]
  | none => cases newOk <;> cases verifyOk <;> simp [initializeCtx]

/-- **When a constructed `SSLClient` has completed its handshake.** For every sequence of `SSL_connect` results
    and whatever the steps before do: the constructor returns only after a success, repeats the call on every
    retryable result and throws on every fatal one, if and only if, once it gets as far as the handshake, the
    first result that is not negative with `SSL_ERROR_WANT_READ` is a success. -/
theorem handshakeComplete_iff (a : Attempt) (ctx : Option Ctx) :
    HandshakeComplete (construct a ctx).1 (construct a ctx).2.2 ↔ (Reaches a ctx → FirstIsDone a.connects) := by
  unfold Reaches construct
  rw [← initializeCtx_returned]
  cases hopened : a.opened with
  | error e =>
      refine ⟨?_, fun _ => handshakeComplete_nil (by simp)⟩
      rintro _ ⟨⟨fd, hfd⟩, _⟩
      exact absurd hfd (by simp)
  | ok fd =>
      simp only
      cases hinit : initializeCtx a.newOk a.verifyOk ctx with
      | mk exit ctx' =>
          cases exit with
          | returned =>
              rw [handshakeComplete_handshake]
              exact ⟨fun h _ => h, fun h => h ⟨⟨fd, rfl⟩, rfl⟩⟩
          | threw e => exact ⟨fun _ h => absurd h.2 (by simp), fun _ => handshakeComplete_nil (by simp)⟩
          | crashed => exact ⟨fun _ h => absurd h.2 (by simp), fun _ => handshakeComplete_nil (by simp)⟩
          | running => exact ⟨fun _ h => absurd h.2 (by simp), fun _ => handshakeComplete_nil (by simp)⟩

/-- **A failed handshake leaves a constructed client.** The first `SSL_connect` returns 0 with
    `SSL_ERROR_ZERO_RETURN`, or a negative value with `SSL_ERROR_WANT_WRITE`, or one with `SSL_ERROR_SSL`: the
    constructor returns normally. -/
theorem constructed_without_handshake :
    construct ⟨.ok 5, true, true, [.zero .zeroReturn]⟩ none = (.returned, some ⟨true⟩, [.zero .zeroReturn]) ∧
      ¬ HandshakeComplete .returned [.zero .zeroReturn] ∧
    construct ⟨.ok 5, true, true, [.negative .wantWrite]⟩ none =
        (.returned, some ⟨true⟩, [.negative .wantWrite]) ∧
      ¬ HandshakeComplete .returned [.negative .wantWrite] ∧
    construct ⟨.ok 5, true, true, [.negative .ssl]⟩ none = (.returned, some ⟨true⟩, [.negative .ssl]) ∧
      ¬ HandshakeComplete .returned [.negative .ssl] := by
  refine ⟨rfl, ?_, rfl, ?_, rfl, ?_⟩
  · rw [handshakeComplete_last]
    decide
  · rw [handshakeComplete_last]
    decide
  · rw [handshakeComplete_last]
    decide

/-! ## Histories of constructions -/

/-- A construction as a step on `ctx_`. A crash ends the process. -/
def step (ctx : Option Ctx) (a : Attempt) : Option (Option Ctx) :=
  match construct a ctx with
  | (.crashed, _, _) => none
  | (_, ctx', _) => some ctx'

/-- **`initialize_ctx` does what it is for**: when it returns, `ctx_` is a context with the CA store loaded, and
    when it throws, `ctx_` is as it was before. -/
def Initializes (ctx : Option Ctx) (a : Attempt) : Prop :=
  (∃ fd, a.opened = .ok fd) →
    ((initializeCtx a.newOk a.verifyOk ctx).1 = .returned →
      (initializeCtx a.newOk a.verifyOk ctx).2 = some ⟨true⟩) ∧
    (∀ e, (initializeCtx a.newOk a.verifyOk ctx).1 = .threw e →
      (initializeCtx a.newOk a.verifyOk ctx).2 = ctx)

/-- The construction does not create a context and then fail to load the CA store into it. -/
def LoadsWhenCreated (ctx : Option Ctx) (a : Attempt) : Prop :=
  (∃ fd, a.opened = .ok fd) → ctx = none → a.newOk = true → a.verifyOk = true

/-- `ctx_` is empty or loaded. -/
def Ready (ctx : Option Ctx) : Prop := ∀ c, ctx = some c → c.loaded = true

/-- What a construction does to `ctx_`: nothing, or what `initialize_ctx` does. -/
theorem step_cases {ctx ctx' : Option Ctx} {a : Attempt} (h : step ctx a = some ctx') :
    ctx' = ctx ∨ ((∃ fd, a.opened = .ok fd) ∧ ctx' = (initializeCtx a.newOk a.verifyOk ctx).2 ∧
      (initializeCtx a.newOk a.verifyOk ctx).1 ≠ .crashed) := by
  unfold step construct at h
  cases hopened : a.opened with
  | error e =>
      rw [hopened] at h
      exact Or.inl (Option.some.inj h).symm
  | ok fd =>
      rw [hopened] at h
      cases hinit : initializeCtx a.newOk a.verifyOk ctx with
      | mk exit ctx1 =>
          simp only [hinit] at h
          refine Or.inr ⟨⟨fd, rfl⟩, ?_⟩
          cases exit with
          | crashed => exact absurd h (by simp)
          | threw e => exact ⟨(Option.some.inj h).symm, by simp⟩
          | running => exact ⟨(Option.some.inj h).symm, by simp⟩
          | returned =>
              refine ⟨?_, by simp⟩
              simp only at h
              -- the handshake never crashes, and does not touch `ctx_`
              split at h
              · exact absurd h (by simp)
              · next heq =>
                  simp only [Prod.mk.injEq] at heq
                  rw [← Option.some.inj h, ← heq.2.1]

/-- With `ctx_` empty or loaded, `initialize_ctx` does its work exactly when it does not fail half way. -/
theorem initializes_iff {ctx : Option Ctx} {a : Attempt} (hready : Ready ctx) :
    Initializes ctx a ↔ LoadsWhenCreated ctx a := by
  unfold Initializes LoadsWhenCreated
  cases ctx with
  | some c =>
      have hc : c = ⟨true⟩ := by
        obtain ⟨loaded⟩ := c
        exact congrArg Ctx.mk (hready _ rfl)
      refine ⟨fun _ _ hnone => absurd hnone (by simp), fun _ _ => ⟨fun _ => ?_, fun e _ => rfl⟩⟩
      exact congrArg some hc
  | none =>
      cases hnew : a.newOk with
      | false => simp [initializeCtx]
      | true =>
          cases hverify : a.verifyOk with
          | false => simp [initializeCtx]
          | true => simp [initializeCtx]

theorem ready_step {ctx ctx' : Option Ctx} {a : Attempt} (hready : Ready ctx) (hloads : LoadsWhenCreated ctx a)
    (h : step ctx a = some ctx') : Ready ctx' := by
  rcases step_cases h with rfl | ⟨hopened, rfl, hcrash⟩
  · exact hready
  · cases ctx with
    | some c => exact hready
    | none =>
        cases hnew : a.newOk with
        | false => exact absurd (by rw [hnew]; rfl) hcrash
        | true =>
            rw [hloads hopened rfl hnew]
            intro c hc
            cases hc
            rfl

/-- **When no client ever uses a half-initialised context.** Over every history of constructions, in the order
    in which they enter the mutex: `initialize_ctx` does what it is for in every construction, if and only if
    no construction creates a context and then fails to load the CA store into it. -/
theorem contexts_loaded_iff (as : List Attempt) :
    Transition.AllSteps step Initializes none as ↔ Transition.AllSteps step LoadsWhenCreated none as := by
  have hready : Ready none := fun c hc => absurd hc (by simp)
  constructor
  · intro h
    exact Transition.AllSteps.of_invariant
      (fun hr hi hs => ready_step hr ((initializes_iff hr).mp hi) hs)
      (fun hr hi => (initializes_iff hr).mp hi) hready h
  · intro h
    exact Transition.AllSteps.of_invariant (fun hr hl hs => ready_step hr hl hs)
      (fun hr hl => (initializes_iff hr).mpr hl) hready h

/-- **A failed context stays.** The first construction creates a context and cannot load the CA store: it
    throws with that context in `ctx_`, and the second one returns and uses it. -/
theorem failed_context_stays :
    initializeCtx true false none =
        (.threw (.nonRecoverable "Failed to load system CA store" none), some ⟨false⟩) ∧
      initializeCtx true true (some ⟨false⟩) = (.returned, some ⟨false⟩) ∧
      ¬ Transition.AllSteps step Initializes none [⟨.ok 5, true, false, []⟩, ⟨.ok 6, true, true, [.done]⟩] := by
  refine ⟨rfl, rfl, fun h => ?_⟩
  have hkept := (h.1 ⟨5, rfl⟩).2 _ rfl
  exact absurd hkept (by decide)

end SSLClient

end Neblina
