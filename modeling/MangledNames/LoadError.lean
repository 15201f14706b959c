import MangledNames.Config.Document
import MangledNames.Elf.File
import MangledNames.Fault
set_option autoImplicit false

/-!
What can be wrong with files.
-/

namespace MangledNames

inductive LoadError where
  | fileMissing
  | elf (error : Elf.ElfError)
  | config (details : List Config.Detail)
  | fault (fault : Fault)
  deriving DecidableEq, Repr

end MangledNames
