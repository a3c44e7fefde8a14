/-!
# Blank characters

The characters with the Unicode property White_Space, and splitting text at them.
-/

namespace Chronicle.Text

/-- Code points with the property White_Space. -/
def blankPoints : List Nat :=
  [0x09, 0x0A, 0x0B, 0x0C, 0x0D, 0x20, 0x85, 0xA0, 0x1680, 0x2000, 0x2001, 0x2002, 0x2003,
    0x2004, 0x2005, 0x2006, 0x2007, 0x2008, 0x2009, 0x200A, 0x2028, 0x2029, 0x202F, 0x205F, 0x3000]

def isBlank (c : Char) : Bool := blankPoints.contains c.toNat

def trimLeft (input : List Char) : List Char := input.dropWhile isBlank

def trimRight (input : List Char) : List Char := (input.reverse.dropWhile isBlank).reverse

def trim (input : List Char) : List Char := trimRight (trimLeft input)

/-- Maximal runs of characters that are not blank. -/
def words : List Char → List (List Char)
  | [] => []
  | c :: rest =>
      if isBlank c then words rest
      else
        match rest with
        | [] => [[c]]
        | d :: _ =>
            if isBlank d then [c] :: words rest
            else
              match words rest with
              | word :: more => (c :: word) :: more
              | [] => [[c]]

/-- Parts between the separators; there is always at least one. -/
def splitAt (separator : Char) : List Char → List (List Char)
  | [] => [[]]
  | c :: rest =>
      if c = separator then [] :: splitAt separator rest
      else
        match splitAt separator rest with
        | part :: more => (c :: part) :: more
        | [] => [[c]]

/-- Parts before and after the first separator. -/
def splitOnce? (separator : Char) : List Char → Option (List Char × List Char)
  | [] => none
  | c :: rest =>
      if c = separator then some ([], rest)
      else (splitOnce? separator rest).map fun (before, after) => (c :: before, after)

def strip? : List Char → List Char → Option (List Char)
  | [], input => some input
  | c :: literal, d :: input => if c = d then strip? literal input else none
  | _ :: _, [] => none

end Chronicle.Text
