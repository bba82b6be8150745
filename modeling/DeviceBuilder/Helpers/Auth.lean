import DeviceBuilder.Helpers.Storage
import DeviceBuilder.Lib.Dict

/-!
# Session tokens

`helpers/auth.py`: a login mints a token; each use slides its expiry; the tokens are
kept in RAM and written through the debounced store, a slid expiry at most hourly.

* `World.create`, `World.validate`, `World.revoke`, `World.revokeAll`: the methods of `SessionStore`.
* `World.restart`: a new process loads the file.
* `World.step`: one action, of a caller, of the clock, of the store or of its threads.

Tokens are numbered as they are minted, from 1 on; 0 is the empty token. `uses` and
`revocations` are what the laws speak of, the code does not keep them.
-/

namespace DeviceBuilder.Auth

open Storage

/-- `Session`. -/
structure Session where
  token : ℕ
  createdAt : ℕ
  lastUsedAt : ℕ
  expiresAt : ℕ
  deriving DecidableEq

def Session.isExpired (s : Session) (now : ℕ) : Bool := s.expiresAt ≤ now

abbrev Sessions := Dict ℕ Session

def persistDebounceSeconds : ℕ := 3600

/-- `_encode`. -/
def encode (sessions : Sessions) : List Session := sessions.values

/-- `_decode`, of a file that `_encode` wrote. -/
def decode (now : ℕ) (entries : List Session) : Sessions :=
  (entries.filter (!·.isExpired now)).foldl (fun d s => d.set s.token s) ∅

/-- A `revoke` or `revoke_all` of this process: its tokens, and the mutations before its flush, if it flushes. -/
structure Revocation where
  tokens : List ℕ
  asked : Option ℕ
  deriving DecidableEq

structure World where
  ttl : ℕ
  /-- `time.time()`. -/
  now : ℕ := 0
  nextToken : ℕ := 1
  /-- `_store`, with `_sessions` as the value in RAM. -/
  store : Store Sessions (List Session)
  persistedExpires : Dict ℕ ℕ := ∅
  /-- When a token was minted and used, newest first. -/
  uses : ℕ → List ℕ := fun _ => []
  revocations : List Revocation := []

inductive Action
  /-- The clock advances. -/
  | advance (d : ℕ)
  | create
  | validate (token : ℕ)
  | revoke (token : ℕ)
  | revokeAll
  /-- `AuthController.stop` flushes the store. -/
  | stop
  /-- The store's own steps. -/
  | tick
  | timerFires
  | resume (i : ℕ)
  | jobStarts (k : ℕ)
  | jobEnds (k : ℕ) (ok : Bool)
  /-- A new process; the file may be unreadable. -/
  | restart (readable : Bool)
  deriving DecidableEq

namespace World

variable (w : World)

/-- `_sessions`. -/
def sessions : Sessions := w.store.ram

/-- Change `_sessions`, nothing else. -/
def setSessions (d : Sessions) : World := { w with store := { w.store with ram := d } }

/-- `_schedule_save`, after a change. -/
def scheduleSave : World := { w with store := Store.asyncDelaySave { w.store with gen := w.store.gen + 1 } 0 }

/-- `_save_now`, after a change. -/
def saveNow : World := { w.scheduleSave with store := w.scheduleSave.store.asyncSaveNow }

def used (token : ℕ) : World := { w with uses := Function.update w.uses token (w.now :: w.uses token) }

def create : World :=
  let session : Session := ⟨w.nextToken, w.now, w.now, w.now + w.ttl⟩
  saveNow (used { w.setSessions (w.sessions.set w.nextToken session) with
    nextToken := w.nextToken + 1
    persistedExpires := w.persistedExpires.set w.nextToken session.expiresAt } w.nextToken)

/-- The session with its expiry slid. -/
def slide (s : Session) : Session := { s with lastUsedAt := w.now, expiresAt := w.now + w.ttl }

def validate (token : ℕ) : World × Option Session :=
  if token = 0 then (w, none)
  else match w.sessions.get? token with
    | none => (w, none)
    | some session =>
      if session.isExpired w.now then
        (scheduleSave { w.setSessions (w.sessions.erase token) with
          persistedExpires := w.persistedExpires.erase token }, none)
      else
        let session := w.slide session
        let w' := used (w.setSessions (w.sessions.set token session)) token
        if persistDebounceSeconds ≤ session.expiresAt - (w.persistedExpires.get? token).getD 0 then
          (scheduleSave { w' with persistedExpires := w.persistedExpires.set token session.expiresAt }, some session)
        else (w', some session)

def noted (tokens : List ℕ) (asked : Option ℕ) : World :=
  { w with revocations := w.revocations ++ [⟨tokens, asked⟩] }

def revoke (token : ℕ) : World :=
  match w.sessions.get? token with
  -- nothing is popped, nothing written
  | none => if token < w.nextToken then w.noted [token] none else w
  | some _ => saveNow (noted { w.setSessions (w.sessions.erase token) with
      persistedExpires := w.persistedExpires.erase token } [token] (some (w.store.gen + 1)))

def revokeAll : World :=
  saveNow (noted { w.setSessions ∅ with persistedExpires := ∅ } (List.range w.nextToken) (some (w.store.gen + 1)))

/-- What a new process loads. -/
def loaded (readable : Bool) : Sessions :=
  match w.store.file with
  | some (_, entries) => if readable then decode w.now entries else ∅
  | none => ∅

/-- The process ends, at any point; `async_load` of the next. -/
def restart (readable : Bool) : World :=
  { w with
    store := { Store.fresh (List Session) (w.loaded readable) with file := w.store.file.map fun f => (0, f.2) }
    persistedExpires := ⟨(w.loaded readable).items.map fun e => (e.1, e.2.expiresAt), by
      rw [List.map_map]
      exact (w.loaded readable).nodup⟩
    revocations := [] }

def liftStore (f : Store Sessions (List Session) → Store Sessions (List Session)) : World := { w with store := f w.store }

/-- One step. -/
def step (w : World) : Action → World
  | .advance d => { w with now := w.now + d }
  | .create => w.create
  | .validate token => (w.validate token).1
  | .revoke token => w.revoke token
  | .revokeAll => w.revokeAll
  | .stop => w.liftStore Store.asyncSaveNow
  | .tick => w.liftStore fun s => { s with now := s.now + 1 }
  | .timerFires => w.liftStore Store.onDelayHandleFire
  | .resume i => w.liftStore (Store.resume · i)
  | .jobStarts k => w.liftStore (Store.jobStarts · k)
  | .jobEnds k ok => w.liftStore fun s => s.jobEnds encode k ok
  | .restart readable => w.restart readable

/-- A dashboard whose sessions file was never written. -/
def init (ttl now : ℕ) : World := { ttl, now, store := Store.fresh (List Session) ∅ }

/-- Is the token accepted now? -/
def accepts (token : ℕ) : Bool := (w.validate token).2.isSome

end World

end DeviceBuilder.Auth
