import KeyedRecord.Derive.Pipeline
import KeyedRecord.Record.Session
import KeyedRecord.Proofs.Catalogue.Dated
import KeyedRecord.Proofs.Derive.Collection
import KeyedRecord.Proofs.Derive.DeclaredTypes
import KeyedRecord.Proofs.Derive.Destinations
import KeyedRecord.Proofs.Derive.Expansion
import KeyedRecord.Proofs.Derive.KeyLiterals
import KeyedRecord.Proofs.Derive.Keys
import KeyedRecord.Proofs.Derive.LeftOut
import KeyedRecord.Proofs.Derive.PropertyOrder
import KeyedRecord.Proofs.Derive.Scanning
import KeyedRecord.Proofs.Derive.SchemaCode
import KeyedRecord.Proofs.Derive.UnitPaths
import KeyedRecord.Proofs.Files.Tree
import KeyedRecord.Proofs.Record.Equality
import KeyedRecord.Proofs.Record.HiddenState
import KeyedRecord.Proofs.Value.Options
import KeyedRecord.Proofs.Value.Stored
