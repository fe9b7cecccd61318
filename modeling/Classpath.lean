import Classpath.ClassFile.Writer
import Classpath.InMemory
import Classpath.Main
import Classpath.Proofs.ClassFile.IgnoredParts
import Classpath.Proofs.ClassFile.RoundTrip
import Classpath.Proofs.ClosureVerdict
import Classpath.Proofs.CheckOutcome
import Classpath.Proofs.ClassFile.SelfDelimiting
import Classpath.Proofs.AddedSources
import Classpath.Proofs.FirstDefinitions
import Classpath.Proofs.WiderFilter
import Classpath.Proofs.Lookups
import Classpath.Proofs.ClassFile.InstructionPieces
import Classpath.Proofs.JarListing
import Classpath.Proofs.CheckCommand
import Classpath.Proofs.Descriptor.Signature
import Classpath.Proofs.Descriptor.MethodResult
import Classpath.Proofs.Text.ModifiedEncoder
import Classpath.Proofs.Arrangement
import Classpath.Proofs.ClassFile.LocalPairing
import Classpath.Proofs.ClassFile.PoolNumbers
import Classpath.Proofs.ClassListing
import Classpath.Proofs.DirectoryContainment
import Classpath.Proofs.CommandLine.EntryNames
import Classpath.Proofs.CommandLine.ImplicitCheck
import Classpath.Proofs.BoundedWalk
import Classpath.Proofs.OrderlyWalk
import Classpath.Proofs.ClassFile.AnnotationCalls
import Classpath.Proofs.ClassFile.GrantedNumbers
import Classpath.Proofs.ClassFile.SafeDecoding
import Classpath.Proofs.EntryPathInverse
