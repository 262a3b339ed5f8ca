import WhereClause.EntryText
import WhereClause.Form
import WhereClause.Proofs.Parameters
import WhereClause.Proofs.ReadBack
import WhereClause.Query.Text
import WhereClause.Settings.Load
import WhereClause.Proofs.Ordering
import WhereClause.Proofs.Histories
import WhereClause.Proofs.Closure
import WhereClause.Proofs.Aliases
import WhereClause.Proofs.Alternatives
import WhereClause.Proofs.BoundValues
import WhereClause.Proofs.Placeholders
import WhereClause.Proofs.Like
import WhereClause.Proofs.Branches
import WhereClause.Proofs.JsonRoundTrip
import WhereClause.Proofs.Admission
import WhereClause.Proofs.Inlining
import WhereClause.Proofs.LiteralLists
import WhereClause.Proofs.Completeness
import WhereClause.Proofs.Suffixes
import WhereClause.Proofs.Terms
import WhereClause.Proofs.Compilation
import WhereClause.Proofs.Loading
import WhereClause.Proofs.NumericTexts
import WhereClause.Proofs.KeyedStores
