set_option autoImplicit false

/-!
The types that the language itself names. Each has a code of one letter or of `D` and a letter,
except the `_FloatN` family, which carries its width in digits.
-/

namespace MangledNames

inductive BuiltinType where
  | void | wchar | bool | char | signedChar | unsignedChar
  | short | unsignedShort | int | unsignedInt | long | unsignedLong
  | longLong | unsignedLongLong | int128 | unsignedInt128
  | float | double | longDouble | float128 | ellipsis
  | decimal64 | decimal128 | decimal32 | half
  | char32 | char16 | char8 | auto | decltypeAuto | nullptr
  | floatN (bits : String)
  deriving DecidableEq, Repr

namespace BuiltinType

def name : BuiltinType → String
  | void => "void" | wchar => "wchar_t" | bool => "bool"
  | char => "char" | signedChar => "signed char" | unsignedChar => "unsigned char"
  | short => "short" | unsignedShort => "unsigned short"
  | int => "int" | unsignedInt => "unsigned int"
  | long => "long" | unsignedLong => "unsigned long"
  | longLong => "long long" | unsignedLongLong => "unsigned long long"
  | int128 => "__int128" | unsignedInt128 => "unsigned __int128"
  | float => "float" | double => "double" | longDouble => "long double"
  | float128 => "__float128" | ellipsis => "..."
  | decimal64 => "decimal64" | decimal128 => "decimal128" | decimal32 => "decimal32"
  | half => "half"
  | char32 => "char32_t" | char16 => "char16_t" | char8 => "char8_t"
  | auto => "auto" | decltypeAuto => "decltype(auto)" | nullptr => "std::nullptr_t"
  | floatN bits => "_Float" ++ bits

def ofLetter? : Char → Option BuiltinType
  | 'v' => some void | 'w' => some wchar | 'b' => some bool
  | 'c' => some char | 'a' => some signedChar | 'h' => some unsignedChar
  | 's' => some short | 't' => some unsignedShort
  | 'i' => some int | 'j' => some unsignedInt
  | 'l' => some long | 'm' => some unsignedLong
  | 'x' => some longLong | 'y' => some unsignedLongLong
  | 'n' => some int128 | 'o' => some unsignedInt128
  | 'f' => some float | 'd' => some double | 'e' => some longDouble
  | 'g' => some float128 | 'z' => some ellipsis
  | _ => none

def ofLetterAfterD? : Char → Option BuiltinType
  | 'd' => some decimal64 | 'e' => some decimal128 | 'f' => some decimal32
  | 'h' => some half
  | 'i' => some char32 | 's' => some char16 | 'u' => some char8
  | 'a' => some auto | 'c' => some decltypeAuto | 'n' => some nullptr
  | _ => none

/-- Literals of these types are written as the digits of their representation. -/
def isFloating : BuiltinType → Bool
  | float | double | longDouble | float128 | half | floatN _ => true
  | _ => false

/-- The suffix of a literal of an integer type; the other types are written in front of it. -/
def literalSuffix? : BuiltinType → Option String
  | int => some ""
  | unsignedInt => some "u"
  | long => some "l"
  | unsignedLong => some "ul"
  | longLong => some "ll"
  | unsignedLongLong => some "ull"
  | _ => none

end BuiltinType

end MangledNames
