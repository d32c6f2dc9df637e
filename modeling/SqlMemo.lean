import SqlMemo.CommandLine.Outcome
import SqlMemo.Main
import SqlMemo.Proofs.Sql.LexemeGrammar
import SqlMemo.Proofs.Sql.StatementGrammar
import SqlMemo.Proofs.Sql.PendingItems
import SqlMemo.Proofs.Sql.Spelling
import SqlMemo.Proofs.Sql.CallResolution
import SqlMemo.Proofs.Storage.BlockLoading
import SqlMemo.Proofs.Storage.Snapshots
import SqlMemo.Proofs.Storage.Decoding
import SqlMemo.Proofs.Sql.Trimming
import SqlMemo.Proofs.Sql.Rendering
import SqlMemo.Proofs.Sql.Displacement
import SqlMemo.Proofs.Sql.Concatenation
import SqlMemo.Proofs.Memo.LazyLoading
import SqlMemo.Proofs.Sql.Recovery
import SqlMemo.Proofs.Bytes
import SqlMemo.Proofs.Memo.PointerField
import SqlMemo.Proofs.Memo.RoundTrip
import SqlMemo.Proofs.Memo.SharedSource
import SqlMemo.Proofs.Sql.LetterCase
import SqlMemo.Proofs.Sql.Stepping
import SqlMemo.Proofs.Sql.Progress
import SqlMemo.Proofs.Storage.Capacity
import SqlMemo.Proofs.Memo.Truncation
import SqlMemo.Proofs.Memo.Ranges
import SqlMemo.Proofs.Text.Boundaries
import SqlMemo.Proofs.Text.Beginnings
import SqlMemo.Proofs.Memo.Paging
import SqlMemo.Proofs.Catalog.Lookup
import SqlMemo.Proofs.CommandLine.EmptyStatements
import SqlMemo.Proofs.CommandLine.TokenTable
import SqlMemo.Proofs.CommandLine.MemoPrinting
import SqlMemo.Proofs.Catalog.Counts
import SqlMemo.Proofs.Catalog.Columns
import SqlMemo.Proofs.Sql.QuoteRuns
