import Stencil.Text.CharWidth

namespace Stencil.Text

/-- A letter or group of letters that some letters before it join.  `joined` says that a joiner
stands before the letter. -/
inductive Ligature where
  /-- an Arabic alef, which a lam joins -/
  | alef
  /-- a Hebrew lamed, which an alef and a joiner join -/
  | lamed (joined : Bool)
  /-- a Khmer consonant that can be written below another one -/
  | subscript
  /-- a Buginese ya, which a vowel sign and a joiner join -/
  | ya (joined : Bool)
  /-- a Buginese ya with its vowel sign, which a second sign joins -/
  | vowelledYa
  /-- a Tifinagh consonant, which another one and a joiner join -/
  | consonant (joined : Bool)
  /-- a Tifinagh consonant with the joiner of its script -/
  | bondedConsonant
  /-- one of the last two Lisu tones, which an earlier one joins -/
  | tone
  /-- an Orkhon i, which one letter and a joiner join -/
  | orkhonI (joined : Bool)
  /-- the Kirat Rai vowel e, which makes longer vowels with others -/
  | vowelE
  /-- the Kirat Rai vowel ai, which makes a longer vowel with another -/
  | vowelAi
deriving DecidableEq, Repr

def isAlef (c : Char) : Bool :=
  inRuns [(0x622, 0x623), (0x625, 0x625), (0x627, 0x627), (0x671, 0x673), (0x675, 0x675),
    (0x773, 0x774), (0x870, 0x882)] c

def isLam (c : Char) : Bool :=
  inRuns [(0x644, 0x644), (0x6B5, 0x6B8), (0x76A, 0x76A), (0x8A6, 0x8A6), (0x8C7, 0x8C7)] c

def isSubscriptLetter (c : Char) : Bool :=
  inRuns [(0x1780, 0x1782), (0x1784, 0x1787), (0x1789, 0x178C), (0x178E, 0x1793),
    (0x1795, 0x1798), (0x179B, 0x179D), (0x17A0, 0x17A0), (0x17A2, 0x17A2), (0x17A7, 0x17A7),
    (0x17AB, 0x17AC), (0x17AF, 0x17AF)] c

def isTifinagh (c : Char) : Bool :=
  inRuns [(0x2D31, 0x2D65), (0x2D6F, 0x2D6F)] c

/-- The runs of characters without columns that end a run of joined Arabic letters. -/
def severingRuns : List (Nat × Nat) :=
  [(0x605, 0x605), (0x890, 0x891), (0x8E2, 0x8E2), (0x9BE, 0x9BE), (0x9D7, 0x9D7), (0xB3E, 0xB3E),
    (0xB57, 0xB57), (0xBBE, 0xBBE), (0xBD7, 0xBD7), (0xCC0, 0xCC0), (0xCC2, 0xCC2), (0xCC7, 0xCC8),
    (0xCCA, 0xCCB), (0xCD5, 0xCD6), (0xD3E, 0xD3E), (0xD4E, 0xD4E), (0xD57, 0xD57), (0xDCF, 0xDCF),
    (0xDDF, 0xDDF), (0x1160, 0x11FF), (0x1715, 0x1715), (0x1734, 0x1734), (0x180E, 0x180E),
    (0x1B35, 0x1B35), (0x1B3B, 0x1B3B), (0x1B3D, 0x1B3D), (0x1B43, 0x1B44), (0x1BAA, 0x1BAA),
    (0x1BF2, 0x1BF3), (0x200C, 0x200D), (0x2065, 0x2069), (0x302E, 0x302F), (0x3164, 0x3164),
    (0xA8FA, 0xA8FA), (0xA953, 0xA953), (0xA9C0, 0xA9C0), (0xD7B0, 0xD7C6), (0xD7CB, 0xD7FB),
    (0xFFA0, 0xFFA0), (0xFFF0, 0xFFF8), (0x111C0, 0x111C0), (0x111C2, 0x111C3), (0x11235, 0x11235),
    (0x1133E, 0x1133E), (0x1134D, 0x1134D), (0x11357, 0x11357), (0x113B8, 0x113B8),
    (0x113C2, 0x113C2), (0x113C5, 0x113C5), (0x113C7, 0x113C9), (0x113CF, 0x113CF),
    (0x113D1, 0x113D1), (0x114B0, 0x114B0), (0x114BD, 0x114BD), (0x115AF, 0x115AF),
    (0x116B6, 0x116B6), (0x11930, 0x11930), (0x1193D, 0x1193D), (0x1193F, 0x1193F),
    (0x11941, 0x11941), (0x11A84, 0x11A89), (0x11D46, 0x11D46), (0x11F02, 0x11F02),
    (0x11F41, 0x11F41), (0x16FF0, 0x16FF1), (0x1D165, 0x1D166), (0x1D16D, 0x1D172),
    (0xE0000, 0xE0000), (0xE0002, 0xE001F), (0xE0080, 0xE00FF), (0xE01F0, 0xE0FFF)]

/-- A character without columns that letters are joined through. -/
def isJoinedThrough (c : Char) : Bool :=
  charWidth c == 0 && !inRuns severingRuns c

/-- A mark between the letters of a ligature that leaves it whole: the grapheme joiner and the
choices of a letter's form. -/
def isTransparent (c : Char) : Bool :=
  inRuns [(0x34F, 0x34F), (0x17B4, 0x17B5), (0x180B, 0x180D), (0x180F, 0x180F), (0xFE00, 0xFE0F),
    (0xE0100, 0xE01EF)] c

namespace Ligature

/-- The ligature that a letter may be the last one of. -/
def ofChar? (c : Char) : Option Ligature :=
  if c = '\u05dc' then some (lamed false)
  else if isAlef c then some alef
  else if isSubscriptLetter c then some subscript
  else if c = '\u1a10' then some (ya false)
  else if isTifinagh c then some (consonant false)
  else if c = '\ua4fc' || c = '\ua4fd' then some tone
  else if c.toNat = 0x10C03 then some (orkhonI false)
  else if c.toNat = 0x16D67 then some vowelE
  else if c.toNat = 0x16D68 then some vowelAi
  else none

/-- A ligature that goes on before a selector for a form. -/
def allowsStyle : Ligature → Bool
  | vowelE | vowelAi => false
  | _ => true

/-- A ligature that goes on before a joiner and marks that leave it whole. -/
def allowsMarks : Ligature → Bool
  | alef | vowelE | vowelAi => false
  | _ => true

/-- The ligature before a joiner. -/
def join : Ligature → Ligature
  | lamed _ => lamed true
  | ya _ => ya true
  | consonant _ => consonant true
  | orkhonI _ => orkhonI true
  | l => l

/-- What a letter before a ligature makes of it: the columns that it adds and what is left for the
letters before, or nothing if the letter stands on its own. -/
def letterBefore? (c : Char) : Ligature → Option (Int × Option Ligature)
  | alef =>
      if isLam c then some (0, none) else if isJoinedThrough c then some (0, some alef) else none
  | lamed joined => if joined && c = '\u05d0' then some (0, none) else none
  | subscript => if c = '\u17d2' then some (-1, none) else none
  | ya joined => if joined && c = '\u1a17' then some (0, some vowelledYa) else none
  | vowelledYa => if c = '\u1a15' then some (0, none) else none
  | consonant joined =>
      if c = '\u2d7f' then some (1, some bondedConsonant)
      else if joined && isTifinagh c then some (0, none)
      else none
  | bondedConsonant => if isTifinagh c then some (-1, none) else none
  | tone => if inRuns [(0xA4F8, 0xA4FB)] c then some (0, none) else none
  | orkhonI joined => if joined && c.toNat = 0x10C32 then some (0, none) else none
  | vowelE =>
      if c.toNat = 0x16D63 || c.toNat = 0x16D69 then some (0, none)
      else if c.toNat = 0x16D67 then some (0, some vowelAi)
      else if c.toNat = 0x16D68 then some (1, some vowelE)
      else none
  | vowelAi => if c.toNat = 0x16D63 then some (0, none) else none

/-- What a character before a ligature makes of it, joiners and marks included. -/
def before? (c : Char) (l : Ligature) : Option (Int × Option Ligature) :=
  if l.allowsMarks && c = '\u200d' then some (0, some l.join)
  else if l.allowsMarks && isTransparent c then some (0, some l)
  else l.letterBefore? c

end Ligature

end Stencil.Text
