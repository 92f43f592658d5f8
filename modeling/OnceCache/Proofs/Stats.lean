import OnceCache.Stats

namespace OnceCache.Stats

variable {s : Stats} {c : Counter} {counters : List Counter}

-- The number that a counter shows.
def value (s : Stats) : Counter → UInt64
  | .hit => s.hits
  | .miss => s.misses
  | .bypass => s.bypasses
  | .generation => s.generations
  | .generationFailure => s.generationFailures
  | .storeFailure => s.storeFailures
  | .eviction => s.evictions
  | .expiration => s.expirations

-- Statistics that show the same numbers are the same.
theorem ext_value {t : Stats} (h : ∀ c, s.value c = t.value c) : s = t :=
  Stats.ext (h .hit) (h .miss) (h .bypass) (h .generation) (h .generationFailure) (h .storeFailure)
    (h .eviction) (h .expiration)

-- The statistics after a list of records.
def after (s : Stats) (counters : List Counter) : Stats := counters.foldl record s

theorem after_append {later : List Counter} :
    s.after (counters ++ later) = (s.after counters).after later :=
  List.foldl_append

-- A record counts at its own counter, and at no other.
theorem value_record {c' : Counter} :
    (s.record c').value c = s.value c + if c' = c then 1 else 0 := by
  cases c' <;> cases c <;> simp [record, value]

theorem value_after : (s.after counters).value c = s.value c + .ofNat (counters.count c) := by
  induction counters generalizing s
  case nil => exact (UInt64.add_zero _).symm
  case cons c' counters hi =>
    have ha : s.after (c' :: counters) = (s.record c').after counters := rfl
    rw [ha, hi, value_record, List.count_cons, UInt64.ofNat_add, UInt64.add_assoc]
    congr 1
    rw [UInt64.add_comm]
    split <;> simp_all

-- Records of one counter show at this counter only.
theorem value_after_map {α : Type} {entries : List α} {c' : Counter} :
    (s.after (entries.map fun _ => c')).value c =
      s.value c + if c' = c then .ofNat entries.length else 0 := by
  rw [value_after, List.map_const', List.count_replicate]
  split <;> simp_all

end OnceCache.Stats
