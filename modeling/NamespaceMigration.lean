import NamespaceMigration.Archive.Plain
import NamespaceMigration.ClassFile.Draft
import NamespaceMigration.Main
import NamespaceMigration.Settings.LogFilter
import NamespaceMigration.Proofs.Archive.CachedHistory
import NamespaceMigration.Proofs.Archive.Repetition
import NamespaceMigration.Proofs.Archive.SettingsKey
import NamespaceMigration.Proofs.ClassFile.BatchConversion
import NamespaceMigration.Proofs.ClassFile.Restoration
import NamespaceMigration.Proofs.ClassFile.RuntimeConversion
import NamespaceMigration.Proofs.Profile.Composition
import NamespaceMigration.Proofs.ClassFile.Edits
import NamespaceMigration.Proofs.Manifest.RoundTrip
import NamespaceMigration.Proofs.Manifest.ClauseMigration
import NamespaceMigration.Proofs.Manifest.Layout
import NamespaceMigration.Proofs.Manifest.Signatures
import NamespaceMigration.Proofs.Cache.Accounting
import NamespaceMigration.Proofs.Cache.Expiry
import NamespaceMigration.Proofs.Cache.SharedAccess
import NamespaceMigration.Proofs.Cache.SharedSaving
import NamespaceMigration.Proofs.Cache.SharedStores
import NamespaceMigration.Proofs.Migration.Mirror
import NamespaceMigration.Proofs.Migration.InPlace
import NamespaceMigration.Proofs.Migration.Repetition
import NamespaceMigration.Proofs.ClassFile.EncodedTexts
import NamespaceMigration.Proofs.Conversion.Replacement
import NamespaceMigration.Proofs.Archive.Untouched
import NamespaceMigration.Proofs.ClassFile.Interference
import NamespaceMigration.Proofs.Profile.Scanning
import NamespaceMigration.Proofs.Cache.Recovery
import NamespaceMigration.Proofs.ClassFile.KeptNames
import NamespaceMigration.Proofs.ClassFile.Truncation
import NamespaceMigration.Proofs.ClassFile.Tiling
import NamespaceMigration.Proofs.ClassFile.DescriptorScan
import NamespaceMigration.Proofs.Profile.Slices
import NamespaceMigration.Proofs.Profile.Segments
import NamespaceMigration.Proofs.ClassFile.FactoryReads
import NamespaceMigration.Proofs.ClassFile.DraftSteps
import NamespaceMigration.Proofs.Deflate.Streams
import NamespaceMigration.Proofs.Archive.Nesting
