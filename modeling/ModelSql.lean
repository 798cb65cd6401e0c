import ModelSql.Statement.Template
import ModelSql.Statement.Payload
import ModelSql.Schema.CreateTable
import ModelSql.Schema.JsonForm
import ModelSql.Engine.JsonForm
import ModelSql.Table.Cache
import ModelSql.Json.Reader
import ModelSql.Json.Printer
import ModelSql.Model.JsonForm
import ModelSql.Declaration.Description
import ModelSql.Declaration.TypeReader
import ModelSql.CommandLine.Report
import ModelSql.Main
import ModelSql.Proofs.Model.RoundTrip
import ModelSql.Proofs.Model.Spellings
import ModelSql.Proofs.Table.Representation
import ModelSql.Proofs.Declaration.Accessors
import ModelSql.Proofs.Table.Sharing
import ModelSql.Proofs.Table.Permanence
import ModelSql.Proofs.Table.Reordering
import ModelSql.Proofs.Table.OmittedFields
import ModelSql.Proofs.Table.IdentityConvention
import ModelSql.Proofs.Sql.Bracketed
import ModelSql.Proofs.Sql.Quotation
import ModelSql.Proofs.Filter.Syntax
import ModelSql.Proofs.Filter.Meaning
import ModelSql.Proofs.Filter.Nesting
import ModelSql.Proofs.Filter.Numbering
import ModelSql.Proofs.Statement.Assignments
import ModelSql.Proofs.Statement.Splicing
import ModelSql.Proofs.Statement.ParameterNames
import ModelSql.Proofs.Statement.Confinement
import ModelSql.Proofs.Statement.Tokens
import ModelSql.Proofs.Statement.Placeholders
import ModelSql.Proofs.Statement.Agreement
import ModelSql.Proofs.Statement.Renaming
import ModelSql.Proofs.Statement.Identity
import ModelSql.Proofs.Statement.IgnoredFields
import ModelSql.Proofs.Schema.Synchrony
import ModelSql.Proofs.Schema.RowKeys
import ModelSql.Proofs.Statement.TableVariables
import ModelSql.Proofs.Statement.AliasMap
import ModelSql.Proofs.Schema.TableReading
import ModelSql.Proofs.Schema.IndexSubject
import ModelSql.Proofs.Schema.IndexKeys
import ModelSql.Proofs.Declaration.Nullability
import ModelSql.Proofs.Declaration.TableAttributes
import ModelSql.Proofs.Declaration.Words
import ModelSql.Proofs.Sql.Literal
import ModelSql.Proofs.Value.Chronology
