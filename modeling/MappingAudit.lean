import MappingAudit.Main
import MappingAudit.Proofs.RepairHistory
import MappingAudit.Proofs.Findings
import MappingAudit.Proofs.MemberClasses
import MappingAudit.Proofs.RepairAgain
import MappingAudit.Proofs.ReverseHalf
import MappingAudit.Proofs.ChainHalves
import MappingAudit.Proofs.Configured
import MappingAudit.Proofs.RegisteredTwice
import MappingAudit.Proofs.ConflictsRemoved
import MappingAudit.Proofs.IgnoreFix
import MappingAudit.Proofs.ShapeNames
import MappingAudit.Proofs.TypeGrammar
import MappingAudit.Proofs.TypeTexts
import MappingAudit.Proofs.RegisterFix
import MappingAudit.Proofs.MoreRegistered
import MappingAudit.Proofs.SharedRun
import MappingAudit.Proofs.Interleaving
import MappingAudit.Proofs.StableSort
import MappingAudit.Proofs.AuditFindings
import MappingAudit.Proofs.TypeRoundTrip
import MappingAudit.Proofs.IdenticalShapes
import MappingAudit.Proofs.TokenPlaces
import MappingAudit.Proofs.SpelledNodes
import MappingAudit.Proofs.SpelledGrammar
import MappingAudit.Proofs.NodePlaces
import MappingAudit.Proofs.ChainTiles
import MappingAudit.Proofs.SplicedEdits
import MappingAudit.Proofs.FixesApply
import MappingAudit.Proofs.StaleAnchors
import MappingAudit.Proofs.MatchedMembers
import MappingAudit.Proofs.RedundantSources
import MappingAudit.Proofs.TypeWalks
import MappingAudit.Proofs.GenericArguments
import MappingAudit.Proofs.MissingClosure
import MappingAudit.Proofs.NearestMembers
import MappingAudit.Proofs.FlattenedNames
import MappingAudit.Proofs.NullDefaults
import MappingAudit.Proofs.TextPieces
import MappingAudit.Proofs.CatalogEntries
import MappingAudit.Proofs.NameLookup
import MappingAudit.Proofs.ProfileSearch
import MappingAudit.Proofs.HiddenProfiles
import MappingAudit.Proofs.RuleSwitch
import MappingAudit.Proofs.DepthLimits
import MappingAudit.Proofs.DeclaredNames
import MappingAudit.Proofs.CatalogIndex
import MappingAudit.Proofs.EnclosingTypes
import MappingAudit.Proofs.Substitutions
import MappingAudit.Proofs.TypeCharacters
import MappingAudit.Proofs.PairTexts
import MappingAudit.Proofs.ValueConversions
import MappingAudit.Proofs.ReportedFindings
import MappingAudit.Proofs.FindingForm
import MappingAudit.Proofs.NameWords
import MappingAudit.Proofs.OutermostSmells
import MappingAudit.Proofs.FilledTemplates
import MappingAudit.Proofs.ArgumentRoles
