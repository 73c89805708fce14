import InstallMedia.Text.Utf8

/-!
# Lines of bytes

## Main definitions

* `Lines.split`: bytes cut after each line feed
* `Lines.isBlankSpace`: the characters that are white space

## Main results

* `Lines.flatten_split`: no byte is lost
-/

namespace InstallMedia.Lines

/-- The byte that ends a line. -/
def feed : UInt8 := 0x0A

/-- Bytes cut after each line feed; the last line may lack one. -/
def split : Bytes → List Bytes
  | [] => []
  | b :: rest =>
    if b = feed then [b] :: split rest
    else
      match split rest with
      | [] => [[b]]
      | line :: more => (b :: line) :: more

/-- No byte is lost. -/
theorem flatten_split (bytes : Bytes) : (split bytes).flatten = bytes := by
  induction bytes with
  | nil => rfl
  | cons b rest ih =>
    unfold split
    split
    · simp [ih]
    · split <;> simp_all

/-- Whether a line ends with a line feed. -/
def isComplete (line : Bytes) : Bool := line.getLast? = some feed

def isBlankSpace (c : Char) : Bool :=
  let n := c.toNat
  (9 ≤ n && n ≤ 13) || n = 0x20 || n = 0x85 || n = 0xA0 || n = 0x1680 ||
    (0x2000 ≤ n && n ≤ 0x200A) || n = 0x2028 || n = 0x2029 || n = 0x202F || n = 0x205F ||
    n = 0x3000

end InstallMedia.Lines
