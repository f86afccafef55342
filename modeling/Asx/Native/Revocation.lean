import Asx.Native.Crl

/-!
# The revocation validator

`revocation/mod.rs` and `revocation/cache.rs`. The checks of one client share the CRL memo, the
cache, the clock and one slot per key, and run side by side: every check, and every refresh in
the background, is a task (`CrlTask`), and a step of the world is one step of one task up to
its next access to what is shared (`CrlWorld.step`). What OpenSSL and `x509-parser` read is a
parameter (`CrlLibrary`), and so is what an HTTP fetch returns.
-/

namespace Asx

/-! ## Rules and answers -/

/-- `Sources`. -/
inductive RevocationSources where
  | crlOnly
  | crlThenOcsp
deriving DecidableEq, Repr

/-- `MissingSource`. -/
inductive MissingSource where
  | refuse
  | acceptRecorded
deriving DecidableEq, Repr

/-- `RevocationRule`. -/
structure RevocationRule where
  sources : RevocationSources
  nextUpdateRequired : Bool
  refreshAfter : Int
  distrustAfter : Option Int
  missingSource : MissingSource
  unobtainableAccepted : Bool
deriving DecidableEq, Repr

/-- `DAY`. -/
def dayNanos : Int := 86400 * nanosPerSec

/-- `RevocationRule::bdew`. -/
def RevocationRule.bdew : RevocationRule :=
  ⟨.crlOnly, true, dayNanos, some (3 * dayNanos), .refuse, false⟩

/-- `Source`. -/
inductive StatusSource where
  | cache
  | network
deriving DecidableEq, Repr

/-- `DistrustReason`. -/
inductive DistrustReason where
  | notObtainable
  | notRenewed
deriving DecidableEq, Repr

/-- `Status`. -/
inductive RevocationStatus where
  | good (source : StatusSource)
  | revoked (source : StatusSource)
  | distrusted (reason : DistrustReason) (since : SystemTime) (source : StatusSource)
  | notObtainable (source : StatusSource)
  | absent
deriving DecidableEq, Repr

/-! ## The cache -/

/-- `ENVELOPE_V1`. -/
def envelopeV1 : Bytes := Str.utf8 (.lit "asx-rev-v1")

/-- `u64::to_be_bytes`. -/
def beBytes64 (n : Nat) : Bytes :=
  [56, 48, 40, 32, 24, 16, 8, 0].map fun k => .ofNat (n / 2 ^ k)

/-- `seal`. -/
def sealEntry (fetchedAt : SystemTime) (der : Bytes) : Bytes :=
  envelopeV1 ++ beBytes64 (fetchedAt / nanosPerSec).toNat ++ der

/-- `open`. -/
def openEntry (entry : Bytes) : Option (SystemTime × Bytes) :=
  if envelopeV1.isPrefixOf entry then
    let rest := entry.drop envelopeV1.length
    if rest.length > 8 then
      let secs : Nat := (rest.take 8).foldl (fun acc b => acc * 256 + b.toNat) 0
      some ((secs : Int) * nanosPerSec, rest.drop 8)
    else none
  else none

/-- `key`. -/
def cacheKey (lib : CrlLibrary) (pre : Str) (first second : Bytes) : Str :=
  pre ++ hexLower (lib.sha256 (first ++ 0 :: second))

/-- `spki_hash`. -/
def spkiHash (lib : CrlLibrary) (cert : Bytes) : Bytes :=
  lib.sha256 ((lib.publicKey cert).getD [])

/-! ## Tasks -/

/-- `Seen`. -/
structure SeenCrl where
  der : Bytes
  crl : ParsedCrl
  fetchedAt : SystemTime
deriving DecidableEq, Repr

/-- The arguments of `crl_scope`. -/
structure ScopeCall where
  issuer : Bytes
  subject : CrlSubject
  point : DistributionPoint
  signer : Bytes
  url : Str
deriving DecidableEq, Repr

/-- The `key` of `crl_scope`. -/
def ScopeCall.key (lib : CrlLibrary) (c : ScopeCall) : Str :=
  let scope := match c.point.crlIssuer with
    | none => spkiHash lib c.issuer
    | some name => Str.utf8 "indirect" ++ name
  cacheKey lib "crl:" scope (Str.utf8 c.url)

/-- Where a task stands, with the values of its variables. A check (`now` and what the cache
    gave) and a refresh in the background share the steps of `fetch_crl`; `check` says which of
    them the fetch is for. -/
inductive CrlPc where
  /-- `crl_scope` before it reads the clock. -/
  | enter
  /-- `cached_crl` before the cache is read. -/
  | readCache (now : SystemTime)
  /-- `cached_crl` before the memo is read. -/
  | lookUp (now storedAt : SystemTime) (der : Bytes)
  /-- `cached_crl` before the verified CRL is remembered. -/
  | remember (now storedAt : SystemTime) (der : Bytes) (crl : ParsedCrl)
  /-- `crl_scope` with the answer of `cached_crl`. -/
  | judge (now : SystemTime) (cached : Option SeenCrl)
  /-- `refresh_in_background` before `try_lock`. -/
  | tryLock
  /-- `fetch_crl` before it reads the generation. -/
  | fetchEnter (check : Option (SystemTime × Option (ParsedCrl × SystemTime)))
  /-- `fetch_crl` before it has the lock. -/
  | waitLock (check : Option (SystemTime × Option (ParsedCrl × SystemTime))) (started : Nat)
  /-- `fetch_crl` of a waiter, before the memo is read. -/
  | waiter (check : Option (SystemTime × Option (ParsedCrl × SystemTime)))
  /-- `fetch_and_store` before the response. -/
  | request (check : Option (SystemTime × Option (ParsedCrl × SystemTime)))
  /-- `fetch_and_store` before the previous CRL is read. -/
  | compare (check : Option (SystemTime × Option (ParsedCrl × SystemTime))) (now : SystemTime)
      (der : Bytes) (crl : ParsedCrl)
  /-- `fetch_and_store` before the cache is written. -/
  | store (check : Option (SystemTime × Option (ParsedCrl × SystemTime))) (seen : SeenCrl)
  /-- `fetch_and_store` before the memo is written. -/
  | rememberFetched (check : Option (SystemTime × Option (ParsedCrl × SystemTime)))
      (seen : SeenCrl)
  /-- `fetch_crl` with the result of `fetch_and_store`. -/
  | complete (check : Option (SystemTime × Option (ParsedCrl × SystemTime)))
      (result : Option SeenCrl)
  /-- `crl_scope` with the answer of `fetch_crl`. -/
  | fetched (now : SystemTime) (cached : Option (ParsedCrl × SystemTime))
      (result : Option SeenCrl)
  /-- `crl_scope` before the warning is read: the CRL, its fetch time, the source and whether a
      fetch failed. -/
  | verdict (now : SystemTime) (current : Option (ParsedCrl × SystemTime)) (source : StatusSource)
      (fetchFailed : Bool)
  /-- `crl_scope` has returned, from this CRL. -/
  | done (now : SystemTime) (crl : Option ParsedCrl) (status : RevocationStatus)
      (warning : Option SystemTime)
  /-- A refresh in the background has ended. -/
  | ended
deriving DecidableEq, Repr

/-- A task: what it was called with and where it stands. -/
structure CrlTask where
  call : ScopeCall
  pc : CrlPc
deriving DecidableEq, Repr

/-! ## The shared state -/

/-- `Flight`, with the task that holds the lock. -/
structure Flight where
  generation : Nat
  last : Option Bool
  failingSince : Option SystemTime
  holder : Option Nat
deriving DecidableEq, Repr

/-- A successful fetch: its key, its time and the CRL that it stored. -/
structure FetchRecord where
  key : Str
  time : SystemTime
  der : Bytes
  crl : ParsedCrl
deriving DecidableEq, Repr

/-- The state that the tasks of a client share, and the tasks. `log` is not in the source: it
    records the successful fetches, last first. -/
structure CrlWorld where
  clock : SystemTime
  memo : Str → Option SeenCrl
  cache : Str → Option (Bytes × SystemTime)
  flights : Str → Flight
  tasks : List CrlTask
  log : List FetchRecord

/-- A client that has made no check. -/
def CrlWorld.new (clock : SystemTime) : CrlWorld :=
  ⟨clock, fun _ => none, fun _ => none, fun _ => ⟨0, none, none, none⟩, [], []⟩

/-! ## Steps of `crl_scope` -/

/-- `pem_or_der`. -/
def pemOrDer (lib : CrlLibrary) (body : Bytes) : Option Bytes :=
  if (Str.utf8 "-----BEGIN").isPrefixOf body then lib.crlFromPem body else some body

/-- The `applies` of `crl_scope`. -/
def ScopeCall.applies (c : ScopeCall) (now : SystemTime) (crl : ParsedCrl) : Bool :=
  (crl.covers c.subject c.point).toOption.isSome && (crl.checkTime now).toOption.isSome

namespace RevocationRule

/-- The `effective_next` of `crl_scope`. -/
def effectiveNext (rule : RevocationRule) (crl : ParsedCrl) (fetchedAt : SystemTime) :
    SystemTime :=
  crl.nextUpdate.getD (fetchedAt + rule.refreshAfter)

/-- The `in_window` of `crl_scope`. -/
def inWindow (rule : RevocationRule) (now fetchedAt : SystemTime) : Bool :=
  rule.distrustAfter.all fun w => max 0 (now - fetchedAt) ≤ w

end RevocationRule

/-- What `crl_scope` takes from the cache: the CRL with its clamped fetch time, where it
    applies, and whether a fetch is forced. -/
def ScopeCall.current (c : ScopeCall) (now : SystemTime) (cached : Option SeenCrl) :
    Option (ParsedCrl × SystemTime) × Bool :=
  match cached with
  | none => (none, false)
  | some seen =>
    let forced := decide (seen.fetchedAt > now)
    let fetchedAt := if forced then seen.crl.thisUpdate else max seen.fetchedAt seen.crl.thisUpdate
    (if c.applies now seen.crl then some (seen.crl, fetchedAt) else none, forced)

/-- The `fresh` of `crl_scope`. -/
def RevocationRule.fresh (rule : RevocationRule) (now : SystemTime) (forced : Bool)
    (current : Option (ParsedCrl × SystemTime)) : Bool :=
  current.any fun (crl, fetchedAt) =>
    !forced && decide (now < rule.effectiveNext crl fetchedAt) && rule.inWindow now fetchedAt

/-- The end of `crl_scope`: the status and whether the warning goes with it. -/
def RevocationRule.conclude (rule : RevocationRule) (subject : CrlSubject) (now : SystemTime)
    (current : Option (ParsedCrl × SystemTime)) (source : StatusSource) (fetchFailed : Bool) :
    RevocationStatus × Bool :=
  match current with
  | none => (.notObtainable source, true)
  | some (crl, fetchedAt) =>
    let next := rule.effectiveNext crl fetchedAt
    if now > next then
      match rule.distrustAfter with
      | some _ => (.distrusted .notRenewed next source, false)
      | none => (.notObtainable source, true)
    else if fetchFailed = true ∧ rule.inWindow now fetchedAt = false then
      (.distrusted .notObtainable fetchedAt source, false)
    else if crl.lists subject then (.revoked source, false)
    else (.good source, true)

/-! ## Steps of the world -/

/-- What happens next. -/
inductive CrlAction where
  /-- Time passes. -/
  | tick (nanos : Nat)
  /-- A check is called. -/
  | call (c : ScopeCall)
  /-- The cache or the memo forgets an entry (both are bounded). -/
  | forgetCached (key : Str)
  | forgetSeen (key : Str)
  /-- A task takes its next step; a fetch that is due gets this response. -/
  | step (task : Nat) (response : Option Bytes)
deriving DecidableEq, Repr

namespace CrlWorld

variable (lib : CrlLibrary) (rule : RevocationRule)

/-- A task goes on at `pc`. -/
def goto (w : CrlWorld) (i : Nat) (t : CrlTask) (pc : CrlPc) : CrlWorld :=
  { w with tasks := w.tasks.set i { t with pc } }

/-- `remember`. -/
def rememberSeen (w : CrlWorld) (key : Str) (seen : SeenCrl) : CrlWorld :=
  { w with memo := fun k => if k = key then some seen else w.memo k }

/-- A change of one slot. -/
def setFlight (w : CrlWorld) (key : Str) (flight : Flight) : CrlWorld :=
  { w with flights := fun k => if k = key then flight else w.flights k }

/-- Where `fetch_crl` returns to. -/
def afterFetch (check : Option (SystemTime × Option (ParsedCrl × SystemTime)))
    (result : Option SeenCrl) : CrlPc :=
  match check with
  | some (now, cached) => .fetched now cached result
  | none => .ended

/-- The expiry that `fetch_and_store` gives an entry. -/
def expiresAt (seen : SeenCrl) : SystemTime :=
  min (seen.crl.nextUpdate.getD (seen.fetchedAt + rule.refreshAfter) + rule.distrustAfter.getD 0)
    (seen.fetchedAt + 7 * dayNanos)

/-- The next step of task `i`, which is `t`. -/
def stepTask (w : CrlWorld) (i : Nat) (t : CrlTask) (response : Option Bytes) : Option CrlWorld :=
  let key := t.call.key lib
  match t.pc with
  | .enter => some (w.goto i t (.readCache w.clock))
  | .readCache now =>
    match w.cache key with
    | none => some (w.goto i t (.judge now none))
    | some (entry, expires) =>
      if expires > w.clock then
        match openEntry entry with
        | none => some (w.goto i t (.judge now none))
        | some (storedAt, der) => some (w.goto i t (.lookUp now storedAt der))
      else some ({ w with cache := fun k => if k = key then none else w.cache k }.goto i t
        (.judge now none))
  | .lookUp now storedAt der =>
    match (w.memo key).filter fun seen => seen.der = der with
    | some seen => some (w.goto i t (.judge now (some ⟨der, seen.crl, storedAt⟩)))
    | none =>
      match parseAndVerify lib der t.call.signer rule.nextUpdateRequired with
      | .ok crl => some (w.goto i t (.remember now storedAt der crl))
      | .error _ => some (w.goto i t (.judge now none))
  | .remember now storedAt der crl =>
    some ((w.rememberSeen key ⟨der, crl, storedAt⟩).goto i t
      (.judge now (some ⟨der, crl, storedAt⟩)))
  | .judge now cached =>
    let (current, forced) := t.call.current now cached
    if rule.fresh now forced current then
      let w' := w.goto i t (.verdict now current .cache false)
      if current.any fun (_, fetchedAt) => max 0 (now - fetchedAt) ≥ rule.refreshAfter then
        some { w' with tasks := w'.tasks ++ [⟨t.call, .tryLock⟩] }
      else some w'
    else some (w.goto i t (.fetchEnter (some (now, current))))
  | .tryLock =>
    if (w.flights key).holder.isSome then some (w.goto i t .ended)
    else some (w.goto i t (.fetchEnter none))
  | .fetchEnter check => some (w.goto i t (.waitLock check (w.flights key).generation))
  | .waitLock check started =>
    let flight := w.flights key
    if flight.holder.isSome then none
    else if flight.generation ≠ started then
      if flight.last = some true then
        some ((w.setFlight key { flight with holder := some i }).goto i t (.waiter check))
      else some (w.goto i t (afterFetch check none))
    else some ((w.setFlight key { flight with holder := some i }).goto i t (.request check))
  | .waiter check =>
    some ((w.setFlight key { w.flights key with holder := none }).goto i t
      (afterFetch check (w.memo key)))
  | .request check =>
    match response.bind (pemOrDer lib) with
    | none => some (w.goto i t (.complete check none))
    | some der =>
      match parseAndVerify lib der t.call.signer rule.nextUpdateRequired with
      | .error _ => some (w.goto i t (.complete check none))
      | .ok crl =>
        match crl.checkTime w.clock with
        | .error _ => some (w.goto i t (.complete check none))
        | .ok () => some (w.goto i t (.compare check w.clock der crl))
  | .compare check now der crl =>
    match (w.memo key).filter fun seen => seen.crl.thisUpdate > crl.thisUpdate with
    | some seen => some (w.goto i t (.store check ⟨seen.der, seen.crl, now⟩))
    | none => some (w.goto i t (.store check ⟨der, crl, now⟩))
  | .store check seen =>
    some ({ w with
      cache := fun k =>
        if k = key then some (sealEntry seen.fetchedAt seen.der, expiresAt rule seen)
        else w.cache k
      log := ⟨key, seen.fetchedAt, seen.der, seen.crl⟩ :: w.log }.goto i t
        (.rememberFetched check seen))
  | .rememberFetched check seen =>
    some ((w.rememberSeen key seen).goto i t (.complete check (some seen)))
  | .complete check result =>
    let flight := w.flights key
    some ((w.setFlight key ⟨flight.generation + 1, some result.isSome,
      if result.isSome then none else some (flight.failingSince.getD w.clock), none⟩).goto i t
        (afterFetch check result))
  | .fetched now cached result =>
    match result.filter fun seen => t.call.applies now seen.crl with
    | some seen => some (w.goto i t (.verdict now (some (seen.crl, seen.fetchedAt)) .network false))
    | none => some (w.goto i t (.verdict now cached .cache true))
  | .verdict now current source fetchFailed =>
    let (status, warns) := rule.conclude t.call.subject now current source fetchFailed
    some (w.goto i t (.done now (current.map Prod.fst) status
      (if warns then (w.flights key).failingSince else none)))
  | .done .. => none
  | .ended => none

/-- One step. -/
def step (w : CrlWorld) : CrlAction → Option CrlWorld
  | .tick nanos => some { w with clock := w.clock + Int.ofNat nanos }
  | .call c => some { w with tasks := w.tasks ++ [⟨c, .enter⟩] }
  | .forgetCached key => some { w with cache := fun k => if k = key then none else w.cache k }
  | .forgetSeen key => some { w with memo := fun k => if k = key then none else w.memo k }
  | .step i response =>
    match w.tasks[i]? with
    | none => none
    | some t => stepTask lib rule w i t response

/-- A run. -/
def run (w : CrlWorld) (actions : List CrlAction) : Option CrlWorld :=
  actions.foldlM (step lib rule) w

end CrlWorld

end Asx
