import DeviceBuilder.Lib.Dict
import DeviceBuilder.Lib.SlidingWindow
import Mathlib.Algebra.Order.Ring.Rat
import Mathlib.Tactic.NormNum

/-!
# The login rate limiter

`helpers/auth.py`: failed logins per IP in a sliding window, a lockout at the
threshold. Two callers ask it, the middleware for a Basic header and the
`auth/login` command; each reads the clock once before it evaluates the password
and once more when it records a failure.

* `RateLimiter.remainingLockout`, `recordFailure`, `clear`: the methods.
* `authMiddleware`, `login`: the two callers.
* `Door.step`: one request at the door; `guesses` is what the laws speak of, the
  code does not keep it.
-/

namespace DeviceBuilder.Login

abbrev Ip := String

/-- Seconds of `time.monotonic()`. -/
abbrev Time := ℚ

/-- The limits a `RateLimiter` is built with; every caller leaves the defaults. -/
structure Limits where
  maxAttempts : ℕ := 10
  windowSeconds : Time := 5 * 60
  lockoutSeconds : Time := 5 * 60
  maxAttempts_pos : 0 < maxAttempts := by decide
  windowSeconds_nonneg : 0 ≤ windowSeconds := by norm_num

def pruneInterval : Time := 60

structure RateLimiter where
  limits : Limits
  attempts : Dict Ip (List Time) := ∅
  lockouts : Dict Ip Time := ∅
  lastPrune : Time := 0

namespace RateLimiter

/-- Seconds until `ip` is unlocked; a lockout that is over goes, with the history. -/
def remainingLockout (r : RateLimiter) (ip : Ip) (now : Time) : RateLimiter × Time :=
  match r.lockouts.get? ip with
  | none => (r, 0)
  | some unlockAt =>
    if unlockAt - now ≤ 0 then
      ({ r with lockouts := r.lockouts.erase ip, attempts := r.attempts.erase ip }, 0)
    else (r, unlockAt - now)

/-- All attempts of a history are outside the window. -/
def isStale (cutoff : Time) (times : List Time) : Bool :=
  match times.getLast? with
  | none => true
  | some last => last < cutoff

/-- `_maybe_prune`. -/
def maybePrune (r : RateLimiter) (now : Time) : RateLimiter :=
  if now - r.lastPrune < pruneInterval then r
  else
    let cutoff := now - r.limits.windowSeconds
    { r with
      lastPrune := now
      attempts := r.attempts.keep fun ip times =>
        !(isStale cutoff times && (r.lockouts.get? ip).isNone) }

/-- Record a failed attempt of `ip`; at the threshold, lock it out. -/
def recordFailure (r : RateLimiter) (ip : Ip) (now : Time) : RateLimiter :=
  let r := r.maybePrune now
  let cutoff := now - r.limits.windowSeconds
  let times := SlidingWindow.since cutoff ((r.attempts.get? ip).getD []) ++ [now]
  let r := { r with attempts := r.attempts.set ip times }
  if times.length ≥ r.limits.maxAttempts then
    { r with lockouts := r.lockouts.set ip (now + r.limits.lockoutSeconds) }
  else r

/-- Drop the history of `ip` and its lockout. -/
def clear (r : RateLimiter) (ip : Ip) : RateLimiter :=
  { r with attempts := r.attempts.erase ip, lockouts := r.lockouts.erase ip }

end RateLimiter

/-! ### The two callers -/

/-- The clock of one request: read by `remaining_lockout`, then the password is
evaluated, then read by `record_failure`. -/
structure Clock where
  checked : Time
  evaluated : Time
  recorded : Time
  checked_le : checked ≤ evaluated
  evaluated_le : evaluated ≤ recorded

inductive Verdict
  | locked (remaining : Time)
  | wrong
  | right
  deriving DecidableEq

/-- What both callers do with a username and a password: check, evaluate, record. -/
def tryPassword (r : RateLimiter) (ip : Ip) (passwordOk : Bool) (t : Clock) :
    RateLimiter × Verdict :=
  let (r, remaining) := r.remainingLockout ip t.checked
  if remaining > 0 then (r, .locked remaining)
  else if passwordOk then (r.clear ip, .right)
  else (r.recordFailure ip t.recorded, .wrong)

/-- `request.remote or "?"`. -/
def clientIp (remote : Option String) : Ip :=
  match remote with
  | none => "?"
  | some ip => if ip = "" then "?" else ip

/-- A request the middleware sees. -/
structure HttpRequest where
  /-- No password is set, or the method or path needs none. -/
  exempt : Bool := false
  remote : Option String
  /-- The session store knows the Bearer token. -/
  tokenValid : Bool := false
  /-- Username and password of a Basic header. -/
  basicAuth : Option (String × String)

inductive HttpResponse
  | handled
  | unauthorized (message : String)
  deriving DecidableEq

/-- `auth_middleware`. -/
def authMiddleware (checkPassword : String → String → Bool) (r : RateLimiter) (q : HttpRequest)
    (t : Clock) : RateLimiter × HttpResponse :=
  if q.exempt then (r, .handled)
  else if q.tokenValid then (r, .handled)
  else
    match q.basicAuth with
    | none => (r, .unauthorized "Authentication required")
    | some (username, password) =>
      let (r, verdict) := tryPassword r (clientIp q.remote) (checkPassword username password) t
      match verdict with
      | .locked _ => (r, .unauthorized "Too many failed attempts; try again later")
      | .right => (r, .handled)
      | .wrong => (r, .unauthorized "Authentication required")

/-- An `auth/login` command. -/
structure LoginCall where
  /-- The connected client's address; `none` without a client. -/
  client : Option (Option String)
  username : String := ""
  password : String := ""
  token : String := ""
  /-- The session store knows the token. -/
  tokenValid : Bool := false

inductive ErrorCode
  | internalError
  | notAuthenticated
  | rateLimited
  deriving DecidableEq

/-- `login`, up to the session it then creates. -/
def login (checkPassword : String → String → Bool) (r : RateLimiter) (q : LoginCall) (t : Clock) :
    RateLimiter × Except (ErrorCode × String) Unit :=
  match q.client with
  | none => (r, .error (.internalError, "auth/login requires a connected client"))
  | some remote =>
    if q.token ≠ "" then
      if q.tokenValid then (r, .ok ())
      else (r, .error (.notAuthenticated, "Invalid or expired token"))
    else
      let (r, verdict) := tryPassword r (clientIp remote) (checkPassword q.username q.password) t
      match verdict with
      | .locked remaining =>
        (r, .error (.rateLimited, "Too many failed attempts; try again in " ++
          toString (remaining.floor + 1) ++ "s"))
      | .wrong => (r, .error (.notAuthenticated, "Invalid credentials"))
      | .right => (r, .ok ())

/-! ### Requests one after another -/

inductive Request
  | http (q : HttpRequest)
  | webSocket (q : LoginCall)

/-- The client and the credentials of a request that has a password evaluated, unless locked out. -/
def Request.credentials : Request → Option (Ip × String × String)
  | .http q => if q.exempt || q.tokenValid then none
      else q.basicAuth.map fun c => (clientIp q.remote, c.1, c.2)
  | .webSocket q => if q.token ≠ "" then none
      else q.client.map fun remote => (clientIp remote, q.username, q.password)

/-- A password that was evaluated. -/
structure Guess where
  ip : Ip
  right : Bool
  evaluated : Time
  recorded : Time
  deriving DecidableEq

/-- The limiter, the clock's last reading and the passwords evaluated so far. -/
structure Door where
  limiter : RateLimiter
  clock : Time
  guesses : List Guess := []

/-- The limiter after one request. -/
def Request.serve (checkPassword : String → String → Bool) (r : RateLimiter) (q : Request)
    (t : Clock) : RateLimiter :=
  match q with
  | .http q => (authMiddleware checkPassword r q t).1
  | .webSocket q => (login checkPassword r q t).1

/-- The password a request has evaluated, if it has one and is not locked out. -/
def Request.guess (checkPassword : String → String → Bool) (r : RateLimiter) (q : Request)
    (t : Clock) : Option Guess :=
  match q.credentials with
  | none => none
  | some (ip, username, password) =>
    if (r.remainingLockout ip t.checked).2 > 0 then none
    else some ⟨ip, checkPassword username password, t.evaluated, t.recorded⟩

/-- One request, from its first clock reading to its last: no await stands between them. -/
def Door.step (checkPassword : String → String → Bool) (d : Door) (a : Request × Clock) : Door where
  limiter := a.1.serve checkPassword d.limiter a.2
  clock := a.2.recorded
  guesses := d.guesses ++ (a.1.guess checkPassword d.limiter a.2).toList

/-- The clock does not run backwards: a request's readings come after the last one's. -/
def Timely (d : Door) (a : Request × Clock) : Prop := d.clock ≤ a.2.checked

end DeviceBuilder.Login
