import PhrasePattern.Text.Category
import PhrasePattern.Text.Folding
import PhrasePattern.Text.Lowercase
import PhrasePattern.Text.Quoted
import PhrasePattern.Token.Scanner
import PhrasePattern.Term.Outline
import PhrasePattern.Term.Parser
import PhrasePattern.Term.Surface
import PhrasePattern.Regex
import PhrasePattern.GroupTable
import PhrasePattern.Session
import PhrasePattern.Main
import PhrasePattern.Proofs.Token.Spelling
import PhrasePattern.Proofs.Term.Reading
import PhrasePattern.Proofs.Term.Grammar
import PhrasePattern.Proofs.Term.Agreement
import PhrasePattern.Proofs.Term.WellFormed
import PhrasePattern.Proofs.Term.RoundTrip
import PhrasePattern.Proofs.Compilation.Binding
import PhrasePattern.Proofs.Regex.Denotation
import PhrasePattern.Proofs.Compilation.Spans
import PhrasePattern.Proofs.Compilation.Meaning
import PhrasePattern.Proofs.Compilation.Acceptance
import PhrasePattern.Proofs.Compilation.Definedness
import PhrasePattern.Proofs.Compilation.Isolation
import PhrasePattern.Proofs.Compilation.WholeMatch
import PhrasePattern.Proofs.Compilation.Sentinels
import PhrasePattern.Proofs.Compilation.Noninterference
import PhrasePattern.Proofs.Compilation.Echo
import PhrasePattern.Proofs.Session.Variables
import PhrasePattern.Proofs.Compilation.Recording
import PhrasePattern.Proofs.GroupTable.Coherence
import PhrasePattern.Proofs.Session.Repetition
import PhrasePattern.Proofs.Term.Failing
import PhrasePattern.Proofs.Term.Truncation
import PhrasePattern.Proofs.Term.Completion
import PhrasePattern.Proofs.Token.Tiling
import PhrasePattern.Proofs.Compilation.Uniqueness
import PhrasePattern.Proofs.Compilation.Reductions
import PhrasePattern.Proofs.Compilation.Replay
import PhrasePattern.Proofs.Token.Rejection
import PhrasePattern.Proofs.Term.Pointing
import PhrasePattern.Proofs.Text.Runs
import PhrasePattern.Proofs.Text.SmallLetters
import PhrasePattern.Proofs.Ngrams.Lookup
import PhrasePattern.Proofs.Compilation.Alternatives
import PhrasePattern.Proofs.Token.Resumption
import PhrasePattern.Proofs.Term.Indexing
import PhrasePattern.Proofs.Term.IndexAgreement
import PhrasePattern.Proofs.Term.Resumption
import PhrasePattern.Regex.Engine
