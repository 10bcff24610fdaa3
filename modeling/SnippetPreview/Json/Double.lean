/-!
# Doubles that are whole numbers

* `Double.nearest`: the double that is nearest to a natural number, when there is no bound on its size. Half the way between
  two, it is the even one;
* `Double.limit`: the numbers from here on have no nearest double;
* `Double.nearest_of_lt`: numbers of at most 53 bits are doubles.
-/

namespace SnippetPreview.Double

/-- The bits of a double that count. -/
def precision : Nat := 53

/-- The quotient of `n` by `2 * half`, to the nearest, and to the even one in the middle. -/
def halfEven (n half : Nat) : Nat :=
  let q := n / (2 * half)
  let r := n % (2 * half)
  if half < r || (r = half && q % 2 = 1) then q + 1 else q

/-- The multiple of a power of two with at most 53 further bits that is nearest to `n`. -/
def nearest (n : Nat) : Nat :=
  let excess := n.log2 + 1 - precision
  if excess = 0 then n
  else
    let half := Nat.pow 2 (excess - 1)
    halfEven n half * (2 * half)

/-- The middle between the largest double and the next power of two. -/
def limit : Nat := Nat.pow 2 1024 - Nat.pow 2 970

theorem nearest_of_lt {n : Nat} (h : n < Nat.pow 2 53) : nearest n = n := by
  have : n.log2 < 53 := by
    by_cases hn : n = 0
    · subst hn; decide
    · exact (Nat.log2_lt hn).2 h
  have : n.log2 + 1 - precision = 0 := by simp only [precision]; omega
  simp [nearest, this]

end SnippetPreview.Double
