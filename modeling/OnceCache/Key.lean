import OnceCache.Table
import OnceCache.Text.Quoted

namespace OnceCache

-- Names one cacheable response. Any text is a key, the empty text included.
@[ext]
structure Key where
  text : String
  deriving DecidableEq, Repr, Inhabited

namespace Key

-- Keys are ordered as their texts are, by code point. This is the order of their UTF-8 bytes.
instance : Ord Key := ⟨compareOn Key.text⟩

instance : Std.TransOrd Key := inferInstanceAs (Std.TransCmp (compareOn Key.text))

instance : Std.LawfulEqOrd Key where
  eq_of_compare h := Key.ext (Std.LawfulEqOrd.eq_of_compare (α := String) h)

def size (k : Key) : Nat := k.text.utf8ByteSize

def debug (k : Key) : String := Quoted.wrapped "CacheKey" (Quoted.text k.text)

def tally (keys : List Key) : Table Key Nat :=
  keys.foldl (fun t k => t.insert k ((t.find? k).getD 0 + 1)) ∅

end Key

end OnceCache
