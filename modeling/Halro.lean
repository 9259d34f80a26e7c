import Halro.Ledger.Listing
import Halro.Replication.Startup
import Halro.Replication.Publication
import Halro.Metadata.Attach
import Halro.Metadata.Shipping
import Halro.Metadata.Trimming
import Halro.Ledger.Compaction
import Halro.Ledger.FilesReplay
import Halro.Ledger.Verify
import Halro.Gateway.Served
import Halro.Budget.Lookups
import Halro.Pricing.HighWater
import Halro.Ledger.Window
import Halro.Redaction.Width
import Halro.Transport.Dial
import Halro.Replication.CatchUp
