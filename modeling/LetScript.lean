import LetScript.Main
import LetScript.Proofs.AppendOnly
import LetScript.Proofs.CommandLine
import LetScript.Proofs.Concatenation
import LetScript.Proofs.Consumption
import LetScript.Proofs.DigitLimit
import LetScript.Proofs.EarliestFault
import LetScript.Proofs.Evaluation
import LetScript.Proofs.FaultPriority
import LetScript.Proofs.Grouping
import LetScript.Proofs.IntegerOperators
import LetScript.Proofs.IntegerRange
import LetScript.Proofs.LazyReading
import LetScript.Proofs.LexicalFaults
import LetScript.Proofs.Locations
import LetScript.Proofs.PlusChains
import LetScript.Proofs.Renaming
import LetScript.Proofs.RoundTrip
import LetScript.Proofs.ScriptFaults
import LetScript.Proofs.Sequences
import LetScript.Proofs.SignedSums
import LetScript.Proofs.TokenLines
import LetScript.Proofs.Typing
import LetScript.Reader.Step
import LetScript.Session
import LetScript.Token.Cursor
