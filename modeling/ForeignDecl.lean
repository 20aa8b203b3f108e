import ForeignDecl.Config.Reader
import ForeignDecl.Layout.Table
import ForeignDecl.Proofs.Document.Annotated
import ForeignDecl.Proofs.Document.Lossless
import ForeignDecl.Proofs.Extract.Aliases
import ForeignDecl.Proofs.Extract.Constants
import ForeignDecl.Proofs.Extract.Failures
import ForeignDecl.Proofs.Extract.Fields
import ForeignDecl.Proofs.Extract.Persistence
import ForeignDecl.Proofs.Extract.Renumbering
import ForeignDecl.Proofs.Extract.Scopes
import ForeignDecl.Proofs.Extract.Separators
import ForeignDecl.Proofs.Extract.Sugar
import ForeignDecl.Proofs.Extract.Termination
import ForeignDecl.Proofs.Extract.Unnamed
import ForeignDecl.Proofs.Layout.Alignment
import ForeignDecl.Proofs.Layout.Answers
import ForeignDecl.Proofs.Layout.Arrangement
import ForeignDecl.Proofs.Layout.Bitfields
import ForeignDecl.Proofs.Layout.Hierarchies
import ForeignDecl.Proofs.Layout.Multiples
import ForeignDecl.Proofs.Layout.Parts
import ForeignDecl.Proofs.Layout.Sections
import ForeignDecl.Proofs.Layout.Spellings
import ForeignDecl.Proofs.Layout.Termination
import ForeignDecl.Proofs.Macro.Literals
import ForeignDecl.Proofs.Macro.Reach
import ForeignDecl.Proofs.Macro.SelfContained
import ForeignDecl.Proofs.Registrations
import ForeignDecl.Proofs.Run.Configuration
import ForeignDecl.Proofs.Run.CutOff
import ForeignDecl.Proofs.Run.Pieces
import ForeignDecl.Proofs.Template.Denotations
import ForeignDecl.Proofs.Unit.Handles
import ForeignDecl.Proofs.Unit.Nesting
import ForeignDecl.Run
