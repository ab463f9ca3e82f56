import Whereabouts.Main
import Whereabouts.Proofs.Ledger
import Whereabouts.Proofs.QueueHistory
import Whereabouts.Proofs.Reencoding
import Whereabouts.Proofs.RosterHistory
import Whereabouts.Proofs.SessionRun
import Whereabouts.Proofs.SharedRegistry
import Whereabouts.Proofs.Truncation
import Whereabouts.Proofs.Layout
import Whereabouts.Proofs.Presence
import Whereabouts.Proofs.Echo
import Whereabouts.Proofs.UnknownEntries
import Whereabouts.Proofs.Switches
import Whereabouts.Proofs.Inspection
import Whereabouts.Proofs.Checked.Calls
import Whereabouts.Proofs.SubEntries
import Whereabouts.Proofs.FieldByField
import Whereabouts.Proofs.CountedBlock
import Whereabouts.Proofs.TrailerFields
import Whereabouts.Proofs.EntryRuns
import Whereabouts.Proofs.EntryCuts
import Whereabouts.Proofs.BlockSurvey
import Whereabouts.Proofs.WrittenBlocks
import Whereabouts.Proofs.ShortBlocks
import Whereabouts.Proofs.Origins
import Whereabouts.Proofs.Coalescing
import Whereabouts.Proofs.Relay
import Whereabouts.Proofs.Spellings
import Whereabouts.Proofs.Totals
import Whereabouts.Proofs.Exposition
import Whereabouts.Proofs.Framing
import Whereabouts.Proofs.Unambiguity
import Whereabouts.Proofs.Playback
