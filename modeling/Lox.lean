import Lox.CommandLine
import Lox.Main
import Lox.Proofs.Checking.Exactness
import Lox.Proofs.Classes.Resolution
import Lox.Proofs.Documents.Programs
import Lox.Proofs.Frames.Laws
import Lox.Proofs.Grammar.Completeness
import Lox.Proofs.Halting.Programs
import Lox.Proofs.Homes.Programs
import Lox.Proofs.Jobs.Arguments
import Lox.Proofs.Jobs.LoopSignals
import Lox.Proofs.Layout.Programs
import Lox.Proofs.Lexical.Programs
import Lox.Proofs.Operators.Repetition
import Lox.Proofs.Plans.Sessions
import Lox.Proofs.Progress.Parsing
import Lox.Proofs.Reach.Calls
import Lox.Proofs.Recovery.Statements
import Lox.Proofs.Reports.Stages
import Lox.Proofs.Returns.Sources
import Lox.Proofs.Scanning.LineBreaks
import Lox.Proofs.Sessions.Chunks
import Lox.Proofs.Signals.Programs
import Lox.Proofs.Writing.Programs
import Lox.Session
import Lox.Tree.Map
