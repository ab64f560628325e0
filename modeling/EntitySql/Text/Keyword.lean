/-! # Words and keywords

    White space in names, operators and settings means the Unicode property
    `White_Space`. A text is *blank* if it holds nothing else, `trim` removes
    blank characters from both ends, and `words` lists the maximal runs of
    characters that are not blank.

    Keywords are ASCII, and they are recognised in any mixture of cases. A
    character other than an ASCII letter can take part: `ſ` has the upper case
    `S`, and the Kelvin sign has the lower case `k`. Characters whose other
    case is not ASCII cannot occur in a keyword, so they may stay as they are.
-/

namespace EntitySql.Text

/-! ## Blank characters -/

/-- The 25 characters with the Unicode property `White_Space`. -/
def isBlank (c : Char) : Bool :=
  let n := c.toNat
  (0x09 ≤ n && n ≤ 0x0D) || n == 0x20 || n == 0x85 || n == 0xA0 || n == 0x1680 ||
  (0x2000 ≤ n && n ≤ 0x200A) || n == 0x2028 || n == 0x2029 || n == 0x202F ||
  n == 0x205F || n == 0x3000

/-- A text without any character other than blank ones. -/
def blank (s : String) : Bool := s.toList.all isBlank

@[simp] theorem blank_empty : blank "" = true := rfl

theorem blank_append (s t : String) : blank (s ++ t) = (blank s && blank t) := by
  simp [blank, String.toList_append]

/-! ## Trimming -/

/-- The characters between the leading and the trailing blank ones. -/
def trimChars (cs : List Char) : List Char :=
  ((cs.dropWhile isBlank).reverse.dropWhile isBlank).reverse

def trim (s : String) : String := String.ofList (trimChars s.toList)

/-! ## Words -/

/-- The maximal runs of characters that are not blank. -/
def words (cs : List Char) : List (List Char) :=
  (cs.splitOnP isBlank).filter (!·.isEmpty)

@[simp] theorem words_nil : words [] = [] := rfl

/-! ## Keywords in any case -/

/-- The upper case of a character where that is ASCII, else the character itself. -/
def upperChar (c : Char) : List Char :=
  if c.isLower then [c.toUpper]
  else match c.toNat with
    | 0xDF => ['S', 'S']
    | 0x131 => ['I']
    | 0x17F => ['S']
    | 0xFB00 => ['F', 'F']
    | 0xFB01 => ['F', 'I']
    | 0xFB02 => ['F', 'L']
    | 0xFB03 => ['F', 'F', 'I']
    | 0xFB04 => ['F', 'F', 'L']
    | 0xFB05 => ['S', 'T']
    | 0xFB06 => ['S', 'T']
    | _ => [c]

/-- The lower case of a character where that is ASCII, else the character itself. -/
def lowerChar (c : Char) : Char :=
  if c.isUpper then c.toLower else if c.toNat == 0x212A then 'k' else c

/-- A text in upper case, for comparison with keywords. -/
def upper (cs : List Char) : List Char := cs.flatMap upperChar

/-- A text in lower case, for comparison with names of dialects. -/
def lower (cs : List Char) : List Char := cs.map lowerChar

/-- The words of a text in upper case, with single spaces between them. -/
def keywords (s : String) : String :=
  String.ofList (upper ([' '].intercalate (words s.toList)))

/-- The text without surrounding white space, in upper case. -/
def keyword (s : String) : String := String.ofList (upper (trimChars s.toList))

/-- Two texts that differ at most in the case of ASCII letters. -/
def sameButAsciiCase (s t : String) : Bool :=
  s.toList.map Char.toLower == t.toList.map Char.toLower

@[simp] theorem upper_nil : upper [] = [] := rfl

@[simp] theorem upper_append (cs ds : List Char) : upper (cs ++ ds) = upper cs ++ upper ds := by
  simp [upper]

@[simp] theorem lower_append (cs ds : List Char) : lower (cs ++ ds) = lower cs ++ lower ds := by
  simp [lower]

/-! ## Occurrence in a text -/

/-- Whether a list begins somewhere inside of another. -/
def occursIn (pattern : List Char) : List Char → Bool
  | [] => pattern.isEmpty
  | c :: cs => pattern.isPrefixOf (c :: cs) || occursIn pattern cs

def occurs (pattern text : String) : Bool := occursIn pattern.toList text.toList

@[simp] theorem occursIn_nil (cs : List Char) : occursIn [] cs = true := by
  cases cs <;> simp [occursIn]

end EntitySql.Text
