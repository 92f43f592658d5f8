namespace OnceCache

inductive Counter
  | hit
  -- A read that found nothing usable.
  | miss
  -- A request that skipped the read.
  | bypass
  | generation
  | generationFailure
  | storeFailure
  | eviction
  | expiration
  deriving DecidableEq, Repr

@[ext]
structure Stats where
  hits : UInt64 := 0
  misses : UInt64 := 0
  bypasses : UInt64 := 0
  generations : UInt64 := 0
  generationFailures : UInt64 := 0
  storeFailures : UInt64 := 0
  evictions : UInt64 := 0
  expirations : UInt64 := 0
  deriving DecidableEq, Repr, Inhabited

namespace Stats

def record (s : Stats) : Counter → Stats
  | .hit => { s with hits := s.hits + 1 }
  | .miss => { s with misses := s.misses + 1 }
  | .bypass => { s with bypasses := s.bypasses + 1 }
  | .generation => { s with generations := s.generations + 1 }
  | .generationFailure => { s with generationFailures := s.generationFailures + 1 }
  | .storeFailure => { s with storeFailures := s.storeFailures + 1 }
  | .eviction => { s with evictions := s.evictions + 1 }
  | .expiration => { s with expirations := s.expirations + 1 }

def toList (s : Stats) : List UInt64 :=
  [s.hits, s.misses, s.bypasses, s.generations, s.generationFailures, s.storeFailures, s.evictions,
    s.expirations]

def history (s : Stats) (counters : List Counter) : List Stats :=
  match counters with
  | [] => [s]
  | c :: counters => s :: (s.record c).history counters

def isZero (s : Stats) : Bool := s == {}

-- Hits in percent of reads, in binary64: each counter is rounded first, then the sum, the quotient
-- and the product. A bypass is not a read. Without reads the rate is zero.
def hitRate (s : Stats) : Float :=
  let hits := s.hits.toFloat
  let reads := hits + s.misses.toFloat
  if reads > 0.0 then hits / reads * 100.0 else 0.0

end Stats

end OnceCache
