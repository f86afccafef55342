import Asx.ForStd.Bytes
import Asx.ForStd.Except

/-!
# Replay protection

`dedup.rs`: the answers of a `DedupStore`, the in-process store `MemoryDedup`, and the
dedup key. An `Instant` is a number of nanoseconds, so every operation takes the reading
of the clock it starts with; the hash map is the partial function it stands for. The
16 random bytes of a token are what `getrandom` returned.

A store is used through three calls. `StoreEvent` records a call with its answer, and
`MemoryDedup.run` is the store's history under a sequence of requests, in the order in which
they take the mutex. A call reads the clock before it waits for the mutex, so the readings of a
sequence need not grow: they are those of the calls, listed in lock order.
-/

namespace Asx

/-- `ClaimToken`: the lease id of one successful claim. -/
structure ClaimToken where
  lease : Str
deriving DecidableEq, Repr

/-- `Claim`: the answer to `DedupStore::claim`. -/
inductive Claim where
  | claimed (token : ClaimToken)
  | duplicate
  | inFlight
deriving DecidableEq, Repr

/-- `Entry`, with the instant it expires (`until`). -/
inductive DedupEntry where
  | held (token : ClaimToken) (expires : Nat)
  | accepted (expires : Nat)
deriving DecidableEq, Repr

/-- The field `until` of either kind of entry. -/
def DedupEntry.expires : DedupEntry → Nat
  | held _ e => e
  | accepted e => e

/-- `Duration::from_secs`, in nanoseconds. -/
def fromSecs (secs : Nat) : Nat := secs * 1000000000

/-- `LEASE`: five minutes. -/
def lease : Nat := fromSecs (5 * 60)

/-- `MIN_RETENTION`: seven days. -/
def minRetention : Nat := fromSecs (7 * 24 * 60 * 60)

/-- `RETENTION`. -/
def retention : Nat := minRetention

/-- `MemoryDedup`. -/
structure MemoryDedup where
  entries : Str → Option DedupEntry

namespace MemoryDedup

/-- `MemoryDedup::default`. -/
def empty : MemoryDedup := ⟨fun _ => none⟩

/-- `HashMap::insert`. -/
def insert (s : MemoryDedup) (key : Str) (entry : DedupEntry) : MemoryDedup :=
  ⟨Function.update s.entries key (some entry)⟩

/-- `HashMap::remove`. -/
def remove (s : MemoryDedup) (key : Str) : MemoryDedup :=
  ⟨Function.update s.entries key none⟩

/-- The sweep of `claim_now`: `entries.retain`, of what has not expired. -/
def retain (s : MemoryDedup) (now : Nat) : MemoryDedup :=
  ⟨fun key => (s.entries key).filter fun entry => now < entry.expires⟩

end MemoryDedup

/-- `fresh_token`: the random bytes in hexadecimal. -/
def freshToken (random : Except Str Bytes) : Except Str Str :=
  match random with
  | .ok bytes => .ok (hexLower bytes)
  | .error err => .error ("no randomness for a claim token: ".toList ++ err)

namespace MemoryDedup

/-- `claim_now`. -/
def claimNow (s : MemoryDedup) (now : Nat) (random : Except Str Bytes) (key : Str) :
    MemoryDedup × Except Str Claim :=
  let s := s.retain now
  match s.entries key with
  | some (.accepted _) => (s, .ok .duplicate)
  | some (.held _ _) => (s, .ok .inFlight)
  | none =>
    match freshToken random with
    | .error err => (s, .error err)
    | .ok token => (s.insert key (.held ⟨token⟩ (now + lease)), .ok (.claimed ⟨token⟩))

/-- The refusal of `settle`. -/
def notHeld : Str :=
  Str.lit "the claim is not held under this token (lease expired or settled)"

/-- `settle`. -/
def settle (s : MemoryDedup) (now : Nat) (key : Str) (token : ClaimToken) (accept : Bool) :
    MemoryDedup × Except Str Unit :=
  match s.entries key with
  | some (.held held expires) =>
    if held = token ∧ now < expires then
      (if accept then s.insert key (.accepted (now + retention)) else s.remove key, .ok ())
    else (s, .error notHeld)
  | _ => (s, .error notHeld)

end MemoryDedup

/-! ## Histories -/

/-- A call of a `DedupStore` with its answer. -/
inductive StoreCall where
  | claim (answer : Except Str Claim)
  | accept (token : ClaimToken) (answer : Except Str Unit)
  | abandon (token : ClaimToken) (answer : Except Str Unit)
deriving Repr

/-- A call, the key it is about and when it was made. -/
structure StoreEvent where
  now : Nat
  key : Str
  call : StoreCall
deriving Repr

/-- What a client asks of a `MemoryDedup`; a claim comes with the randomness it draws. -/
inductive DedupOp where
  | claim (random : Except Str Bytes)
  | accept (token : ClaimToken)
  | abandon (token : ClaimToken)
deriving Repr

/-- A request of a client. -/
structure DedupRequest where
  now : Nat
  key : Str
  op : DedupOp
deriving Repr

namespace MemoryDedup

/-- The `DedupStore` implementation: one call. -/
def perform (s : MemoryDedup) (r : DedupRequest) : MemoryDedup × StoreEvent :=
  match r.op with
  | .claim random =>
    let (s', answer) := s.claimNow r.now random r.key
    (s', ⟨r.now, r.key, .claim answer⟩)
  | .accept token =>
    let (s', answer) := s.settle r.now r.key token true
    (s', ⟨r.now, r.key, .accept token answer⟩)
  | .abandon token =>
    let (s', answer) := s.settle r.now r.key token false
    (s', ⟨r.now, r.key, .abandon token answer⟩)

/-- A sequence of calls: the final store and the history. -/
def run (s : MemoryDedup) : List DedupRequest → MemoryDedup × List StoreEvent
  | [] => (s, [])
  | r :: rs =>
    let (s', e) := s.perform r
    let (s'', es) := run s' rs
    (s'', e :: es)

end MemoryDedup

/-! ## Keys -/

/-- `DedupProtocol`. -/
inductive DedupProtocol where
  | as4
  | as2
deriving DecidableEq, Repr

/-- The name of a protocol in a key. -/
def DedupProtocol.tag : DedupProtocol → Str
  | as4 => ['a', 's', '4']
  | as2 => ['a', 's', '2']

/-- `dedup_key`, over the SHA-256 function. -/
def dedupKey (sha256 : Bytes → Bytes) (protocol : DedupProtocol)
    (senderType senderId messageId : Str) : Str :=
  let parts := [protocol.tag, senderType, senderId, messageId]
  hexLower (sha256 (Str.utf8 "asx-dedup-v1".toList ++ parts.flatMap fun part => 0 :: Str.utf8 part))

end Asx
