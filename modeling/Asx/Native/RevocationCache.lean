import Asx.ForStd.Lru
import Asx.Native.Revocation

/-!
# The cache of revocation data

`MemoryRevocationCache` of `revocation/cache.rs`: the `LruCache` of one client behind its mutex,
so that an interleaving of tasks is a sequence of calls. `lru::LruCache` is a parameter. `now` is
what the client's clock reads inside the call.
-/

namespace Asx

/-- `MEMORY_CACHE_ENTRIES`. -/
def memoryCacheEntries : Nat := 1024

section

variable {σ : Type} (lru : LruCache σ Str (Bytes × SystemTime))

namespace MemoryRevocationCache

/-- `MemoryRevocationCache::new`. -/
def new : σ := lru.new memoryCacheEntries

/-- `get`: the read of the `LruCache` comes before the expiry is compared. -/
def get (entries : σ) (now : SystemTime) (key : Str) : σ × Option Bytes :=
  match lru.get entries key with
  | (entries, some (entry, expiresAt)) =>
    if expiresAt > now then (entries, some entry) else (lru.pop entries key, none)
  | (entries, none) => (entries, none)

/-- `put`. -/
def put (entries : σ) (key : Str) (entry : Bytes) (expiresAt : SystemTime) : σ :=
  lru.put entries key (entry, expiresAt)

end MemoryRevocationCache

/-- A call of the cache. -/
inductive CacheCall where
  | get (now : SystemTime) (key : Str)
  | put (key : Str) (entry : Bytes) (expiresAt : SystemTime)
deriving DecidableEq, Repr

namespace CacheCall

/-- The key that a call uses. -/
def key : CacheCall → Str
  | get _ k => k
  | put k _ _ => k

/-- The cache after a call. -/
def step (entries : σ) : CacheCall → σ
  | get now key => (MemoryRevocationCache.get lru entries now key).1
  | put key entry expiresAt => MemoryRevocationCache.put lru entries key entry expiresAt

/-- The cache of a client after these calls. -/
def after (calls : List CacheCall) : σ := calls.foldl (step lru) (MemoryRevocationCache.new lru)

end CacheCall

end

end Asx
