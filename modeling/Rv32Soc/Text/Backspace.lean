import Rv32Soc.Text.Cluster

/-!
# Backspaces

A line may hold backspaces as they were typed. Each takes back the cluster
that was typed last and not yet taken back; where there is none it does
nothing. `edited?` is what is left of the line.

A cluster is taken back by the number of its bytes in UTF-8, and this number
is kept in a single byte. So of a cluster of 256 bytes or more too little goes,
or nothing; and if the cut falls within a character there is no line at all.
A line without backspaces is always left as it is: `edited?_eq_some`.
-/

namespace Rv32Soc.Text

/-- The character that takes back. -/
def backspace : Char := '\x08'

/-- A line while it is typed. -/
structure TypedLine where
  /-- The characters in the line, the last first. -/
  text : List Char := []
  /-- How many bytes the next backspaces take back, that of the last cluster first. -/
  sizes : List UInt8 := []

/-- The number of bytes of a text in UTF-8. -/
def byteCount : List Char → Nat
  | [] => 0
  | c :: rest => c.utf8Size + byteCount rest

/-- Drop characters that make up just `n` bytes. -/
def dropBytes? : (n : Nat) → List Char → Option (List Char)
  | 0, text => some text
  | _, [] => none
  | n, c :: rest => if c.utf8Size ≤ n then dropBytes? (n - c.utf8Size) rest else none

namespace TypedLine

/-- Add a cluster at the end. -/
def type (line : TypedLine) (cluster : List Char) : TypedLine where
  text := cluster.reverse ++ line.text
  sizes := UInt8.ofNat (byteCount cluster) :: line.sizes

/-- Take the last cluster back, if there is one. -/
def takeBack? (line : TypedLine) : Option TypedLine :=
  match line.sizes with
  | [] => some line
  | size :: sizes => (dropBytes? size.toNat line.text).map fun text => { text, sizes }

/-- Take a cluster from the keyboard. -/
def enter? (line : TypedLine) (cluster : List Char) : Option TypedLine :=
  if cluster = [backspace] then line.takeBack? else some (line.type cluster)

end TypedLine

/-- What a line comes to when its backspaces are obeyed. -/
def edited? (text : List Char) : Option (List Char) :=
  ((clusters text).foldlM TypedLine.enter? {}).map fun line => line.text.reverse

theorem foldlM_enter?_eq (line : TypedLine) {typed : List (List Char)}
    (h : [backspace] ∉ typed) :
    (typed.foldlM TypedLine.enter? line).map (fun line => line.text.reverse)
      = some (line.text.reverse ++ typed.flatten) := by
  induction typed generalizing line with
  | nil => simp
  | cons cluster rest ih =>
      rw [List.mem_cons, not_or] at h
      have here : line.enter? cluster = some (line.type cluster) :=
        if_neg fun e => h.1 e.symm
      simp only [List.foldlM_cons, here, Option.bind_eq_bind, Option.bind_some, ih _ h.2]
      simp [TypedLine.type]

/-- A line without backspaces is left as it is. -/
theorem edited?_eq_some {text : List Char} (h : backspace ∉ text) : edited? text = some text := by
  have none_typed : [backspace] ∉ clusters text := fun mem =>
    h (flatten_clusters text ▸ List.mem_flatten.2 ⟨_, mem, List.mem_singleton.2 rfl⟩)
  rw [edited?, foldlM_enter?_eq {} none_typed, flatten_clusters]
  rfl

end Rv32Soc.Text
