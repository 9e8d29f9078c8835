import Phenotyping.Binary64
import Phenotyping.HashOrder
import Phenotyping.Decimal.Basic
import Phenotyping.Decimal.Shortest
import Phenotyping.Decimal.Rounding
import Phenotyping.Decimal.Notation
import Phenotyping.Decimal.Reading
import Phenotyping.Text.Blank
import Phenotyping.Text.NaturalOrder
import Phenotyping.Distinct
import Phenotyping.Mask
import Phenotyping.ChannelTable
import Phenotyping.Intensity
import Phenotyping.Threshold.Store
import Phenotyping.Threshold.Snapshot
import Phenotyping.Separation.Basic
import Phenotyping.Separation.Seed
import Phenotyping.Separation.Intermeans
import Phenotyping.CellMasks
import Phenotyping.Criterion
import Phenotyping.FeatureCache
import Phenotyping.Pipeline
import Phenotyping.Text.Utf8
import Phenotyping.Text.Printable
import Phenotyping.Text.GraphemeExtend
import Phenotyping.Text.Quoted
import Phenotyping.Storage.OsError
import Phenotyping.Storage.Directory
import Phenotyping.DelimitedText.Reader
import Phenotyping.DelimitedText.Error
import Phenotyping.DelimitedText.Writer
import Phenotyping.DelimitedText.Columns
import Phenotyping.Files.Basic
import Phenotyping.Files.Intensity
import Phenotyping.Files.Records
import Phenotyping.Toml.Value
import Phenotyping.Toml.Cursor
import Phenotyping.Toml.Lexical
import Phenotyping.Toml.Document
import Phenotyping.Toml.Report
import Phenotyping.Config
import Phenotyping.CommandLine.Grammar
import Phenotyping.CommandLine.Interface
import Phenotyping.CommandLine.Run
import Phenotyping.Main
import Phenotyping.Proofs.CacheHistory
import Phenotyping.Proofs.StoreHistory
import Phenotyping.Proofs.MaskBits
import Phenotyping.Proofs.CompiledCriteria
import Phenotyping.Proofs.Encoding
import Phenotyping.Proofs.Counting
import Phenotyping.Proofs.Gating
import Phenotyping.Proofs.ComputeMeaning
import Phenotyping.Proofs.JobOrder
import Phenotyping.Proofs.PositiveCells
import Phenotyping.Proofs.EncodedText
import Phenotyping.Proofs.FloatBits
import Phenotyping.Proofs.ShortestDecimal
import Phenotyping.Proofs.NearestFloat
import Phenotyping.Proofs.FloatText
import Phenotyping.Proofs.TableRoundTrip
import Phenotyping.Proofs.DirectoryFiles
import Phenotyping.Proofs.RecordFiles
import Phenotyping.Proofs.RunSteps
import Phenotyping.Proofs.CachePersistence
import Phenotyping.Proofs.CriterionNames
import Phenotyping.Proofs.SeedRanking
import Phenotyping.Proofs.FloatOrder
import Phenotyping.Proofs.RefinementOutcomes
import Phenotyping.Proofs.NaturalPreorder
import Phenotyping.Proofs.Listings
import Phenotyping.Proofs.EncoderInputs
