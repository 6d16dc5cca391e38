import ScreenAtlas.Main
import ScreenAtlas.Store.Memory
import ScreenAtlas.Proofs.CanonicalPath
import ScreenAtlas.Proofs.Placement
import ScreenAtlas.Proofs.Nesting
import ScreenAtlas.Proofs.Search
import ScreenAtlas.Proofs.TagText
import ScreenAtlas.Proofs.TagGrammar
import ScreenAtlas.Proofs.RouteMarkup
import ScreenAtlas.Proofs.RouteScan
import ScreenAtlas.Proofs.ScannedRoutes
import ScreenAtlas.Proofs.BoundedSpans
import ScreenAtlas.Proofs.EncodedText
import ScreenAtlas.Proofs.RouteSyntax
import ScreenAtlas.Proofs.DocumentOrder
import ScreenAtlas.Proofs.ParsedRoutes
import ScreenAtlas.Proofs.RouteAgreement
import ScreenAtlas.Proofs.ExtractedScreens
import ScreenAtlas.Proofs.FlowIdentity
import ScreenAtlas.Proofs.FlowRefinement
import ScreenAtlas.Proofs.RouteBindings
import ScreenAtlas.Proofs.DeferredRedirects
import ScreenAtlas.Proofs.RunFlows
import ScreenAtlas.Proofs.ReportedRouters
import ScreenAtlas.Proofs.RouterPrecedence
import ScreenAtlas.Proofs.DamagedFiles
import ScreenAtlas.Proofs.ResolutionInPlace
import ScreenAtlas.Proofs.SyntaxWalk
import ScreenAtlas.Proofs.ConfigObjects
import ScreenAtlas.Proofs.NearestDouble
import ScreenAtlas.Proofs.ShortestDecimal
import ScreenAtlas.Proofs.WrittenText
import ScreenAtlas.Proofs.WrittenNumbers
import ScreenAtlas.Proofs.WrittenDocuments
import ScreenAtlas.Proofs.OrderedMembers
import ScreenAtlas.Proofs.FolderFiles
import ScreenAtlas.Proofs.StoredRecords
import ScreenAtlas.Proofs.StoreAgreement
import ScreenAtlas.Proofs.RecordCodec
import ScreenAtlas.Proofs.FileSelection
import ScreenAtlas.Proofs.ScopedCalls
import ScreenAtlas.Proofs.LostFiles
import ScreenAtlas.Proofs.SmallLetters
import ScreenAtlas.Proofs.LenientSettings
import ScreenAtlas.Proofs.CappedSelection
import ScreenAtlas.Proofs.JoinedText
import ScreenAtlas.Proofs.PathSegments
import ScreenAtlas.Proofs.BasenamePrefix
import ScreenAtlas.Proofs.NamedEntries
import ScreenAtlas.Proofs.PrunedListing
import ScreenAtlas.Proofs.ConfinedReads
import ScreenAtlas.Proofs.KeptScreens
import ScreenAtlas.Proofs.CommandScreens
import ScreenAtlas.Proofs.WildcardRoutes
import ScreenAtlas.Proofs.SplatSegments
import ScreenAtlas.Proofs.FileRoutes
import ScreenAtlas.Proofs.CommandTrees
import ScreenAtlas.Proofs.LineLocality
import ScreenAtlas.Proofs.NormalForms
import ScreenAtlas.Proofs.DetectionLaws
import ScreenAtlas.Proofs.FirstOccurrences
import ScreenAtlas.Proofs.SpelledLinks
import ScreenAtlas.Proofs.RaisedEvents
import ScreenAtlas.Proofs.RepeatedPasses
