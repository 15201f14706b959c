import MangledNames.Main
import MangledNames.Proofs.Cursor
import MangledNames.Proofs.Grammar.Decoding
import MangledNames.Proofs.Grammar.DecodingNames
import MangledNames.Proofs.Grammar.DecodingSpellings
import MangledNames.Proofs.Grammar.Lockstep
import MangledNames.Proofs.Grammar.LockstepExpressions
import MangledNames.Proofs.Grammar.Reading
import MangledNames.Proofs.Grammar.SoundEncodings
import MangledNames.Proofs.Grammar.Spellable
import MangledNames.Proofs.Limits
import MangledNames.Proofs.Printing.Sound
import MangledNames.Proofs.Printing.SoundHalves
import MangledNames.Proofs.RoundTrip
import MangledNames.Proofs.Safety
import MangledNames.Proofs.Grammar.Advancing
import MangledNames.Proofs.Grammar.AdvancingTypes
import MangledNames.Proofs.Grammar.AdvancingNames
import MangledNames.Proofs.Grammar.AdvancingEncodings
import MangledNames.Proofs.Trials
import MangledNames.Proofs.Progress
import MangledNames.Proofs.Grammar.DecodingInFull
import MangledNames.Proofs.Grammar.Declaration
import MangledNames.Proofs.Grammar.DecodingDeclarations
import MangledNames.Proofs.Declarations
import MangledNames.Proofs.Grammar.DecodingUnresolvedNames
import MangledNames.Proofs.Grammar.SpellingExpressions
import MangledNames.Proofs.Grammar.DecodingExpressions
import MangledNames.Proofs.Grammar.DecodingClauses
import MangledNames.Proofs.Expressions
import MangledNames.Proofs.Node.Parts
import MangledNames.Proofs.Printing.Instance
import MangledNames.Proofs.Printing.Meeting
import MangledNames.Proofs.Printing.Questions
import MangledNames.Proofs.Printing.InstanceHalves
import MangledNames.Proofs.Instances
import MangledNames.Proofs.Tails
import MangledNames.Proofs.LongerMark
import MangledNames.Proofs.Grammar.Pointing
import MangledNames.Proofs.Grammar.PointingTypes
import MangledNames.Proofs.Grammar.PointingNames
import MangledNames.Proofs.Grammar.PointingEncodings
import MangledNames.Proofs.ErrorOffsets
import MangledNames.Proofs.Grammar.Rooting
import MangledNames.Proofs.Grammar.RootingTypes
import MangledNames.Proofs.Grammar.RootingNames
import MangledNames.Proofs.Grammar.RootingEncodings
import MangledNames.Proofs.ClosedTables
import MangledNames.Proofs.Printing.Tokens
import MangledNames.Proofs.Printing.TokenLists
import MangledNames.Proofs.Printing.DeclaratorTokens
import MangledNames.Proofs.Printing.DeclaredTypes
import MangledNames.Proofs.Printing.Writing
import MangledNames.Proofs.Printing.DeclaredHalves
import MangledNames.Proofs.UniqueDeclarators
import MangledNames.Proofs.Arguments
import MangledNames.Proofs.Brackets
import MangledNames.Proofs.Omissions
import MangledNames.Proofs.Qualifiers
import MangledNames.Proofs.References
import MangledNames.Proofs.Separators
import MangledNames.Proofs.Printing.Respelling
import MangledNames.Proofs.SpellingOptions
import MangledNames.Proofs.Printing.AngleTexts
import MangledNames.Proofs.Printing.AngleHalves
import MangledNames.Proofs.ClosingAngles
import MangledNames.Proofs.ReferenceTemporaries
import MangledNames.Proofs.OldQualifiers
import MangledNames.Proofs.FloatLiterals
import MangledNames.Proofs.OutputBudget
import MangledNames.Proofs.SymbolLists
import MangledNames.Proofs.Outlines
import MangledNames.Proofs.BackReferences
import MangledNames.Proofs.RightSides
import MangledNames.Proofs.LiteralTypes
