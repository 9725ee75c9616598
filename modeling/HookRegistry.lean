import HookRegistry.Bench.Poller
import HookRegistry.Bench.Registry
import HookRegistry.Bench.Session
import HookRegistry.Config.Environment
import HookRegistry.Registry.Lifecycle
import HookRegistry.Time.Moment
import HookRegistry.Proofs.Poller.Shutdown
import HookRegistry.Proofs.Registry.Sharing
import HookRegistry.Proofs.Poller.Overlap
import HookRegistry.Proofs.StoreClient.Conversation
import HookRegistry.Proofs.StoreClient.Visits
import HookRegistry.Proofs.Registry.Entering
import HookRegistry.Proofs.Registry.Leaving
import HookRegistry.Proofs.Registry.Gauge
import HookRegistry.Proofs.StoreClient.Reported
import HookRegistry.Proofs.Registry.Containment
import HookRegistry.Proofs.Metrics.Measures
import HookRegistry.Proofs.Poller.FixedRate
import HookRegistry.Proofs.Double.Rounding
import HookRegistry.Proofs.Webhook.Lifetime
import HookRegistry.Proofs.StoreClient.Destination
import HookRegistry.Proofs.Registry.Registration
import HookRegistry.Proofs.Config.Rules
import HookRegistry.Proofs.Double.Shortest
import HookRegistry.Proofs.Double.Text
import HookRegistry.Proofs.Item.Codec
import HookRegistry.Proofs.Config.Environment
import HookRegistry.Proofs.Value.Lexing
import HookRegistry.Proofs.Value.Grammar
import HookRegistry.Proofs.Metrics.Refusal
import HookRegistry.Proofs.StoreClient.Addressing
import HookRegistry.Proofs.StoreClient.Fetching
import HookRegistry.Proofs.Text.Base64
import HookRegistry.Proofs.Transport.Credentials
import HookRegistry.Proofs.Config.Slashes
import HookRegistry.Proofs.Transport.Method
import HookRegistry.Proofs.StoreClient.Joining
import HookRegistry.Proofs.Metrics.Counting
