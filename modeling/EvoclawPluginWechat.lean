import EvoclawPluginWechat.Properties.SerializerExclusion
import EvoclawPluginWechat.Properties.ReplayGuard
import EvoclawPluginWechat.Properties.DigestFreshness
import EvoclawPluginWechat.Properties.RespawnCooldown
import EvoclawPluginWechat.Properties.CheckoutCoverage
import EvoclawPluginWechat.Properties.Liveness
import EvoclawPluginWechat.Properties.Components
import EvoclawPluginWechat.Properties.ReplyCorrelation
import EvoclawPluginWechat.Properties.TurnOverlap
import EvoclawPluginWechat.Properties.CidUniqueness
import EvoclawPluginWechat.Properties.RequestSteps
import EvoclawPluginWechat.Properties.RetryAgreement
import EvoclawPluginWechat.Core.DigestReload
import EvoclawPluginWechat.Properties.DigestSteps
import EvoclawPluginWechat.Properties.DigestCoherence
import EvoclawPluginWechat.Properties.DigestAtomicity
import EvoclawPluginWechat.Library.Pattern
import EvoclawPluginWechat.Library.Segments
import EvoclawPluginWechat.Library.Xml
import EvoclawPluginWechat.Core.Wxml
import EvoclawPluginWechat.Properties.ReplyEnvelopes
import EvoclawPluginWechat.Properties.InboundParsing
import EvoclawPluginWechat.Core.Crypto
import EvoclawPluginWechat.Core.Config
import EvoclawPluginWechat.Properties.MessageFrames
import EvoclawPluginWechat.Core.Webhook
import EvoclawPluginWechat.Properties.ModeGate
import EvoclawPluginWechat.Properties.SealedEnvelope
import EvoclawPluginWechat.Core.WebhookRun
import EvoclawPluginWechat.Properties.UnsignedRequests
import EvoclawPluginWechat.Properties.TimestampWindow
import EvoclawPluginWechat.Core.DigestQuery
import EvoclawPluginWechat.Library.Selection
import EvoclawPluginWechat.Properties.DateQueries
import EvoclawPluginWechat.Core.StartUp
import EvoclawPluginWechat.Properties.ConversationIds
import EvoclawPluginWechat.Properties.StartUpChecks
import EvoclawPluginWechat.Properties.ReplyIsolation
import EvoclawPluginWechat.Properties.SignedText
import EvoclawPluginWechat.Core.Reader
import EvoclawPluginWechat.Properties.StdoutNoise
import EvoclawPluginWechat.Core.GcTask
import EvoclawPluginWechat.Properties.TableExpiry
import EvoclawPluginWechat.Core.Intent
import EvoclawPluginWechat.Core.TextPayload
import EvoclawPluginWechat.Properties.CanonicalTags
import EvoclawPluginWechat.Properties.RetryCost
import EvoclawPluginWechat.Properties.CacheViews
import EvoclawPluginWechat.Properties.AesKeys
import EvoclawPluginWechat.Properties.DecryptedFrames
import EvoclawPluginWechat.Properties.CardCount
import EvoclawPluginWechat.Properties.ReplyTimeouts
import EvoclawPluginWechat.Properties.ContentLimit
import EvoclawPluginWechat.Properties.DictionaryReach
import EvoclawPluginWechat.Core.CacheOps
import EvoclawPluginWechat.Library.Expiry
import EvoclawPluginWechat.Properties.CacheJournal
import EvoclawPluginWechat.Library.Template
import EvoclawPluginWechat.Properties.TitlePlaceholders
import EvoclawPluginWechat.Properties.FlatEnvelopes
import EvoclawPluginWechat.Properties.EncryptSearch
import EvoclawPluginWechat.Properties.StrayTags
import EvoclawPluginWechat.Properties.EncryptText
import EvoclawPluginWechat.Properties.EncryptAgreement
import EvoclawPluginWechat.Library.Json
import EvoclawPluginWechat.Properties.JsonExtraction
import EvoclawPluginWechat.Library.Encoding
import EvoclawPluginWechat.Properties.WordBoundaries
import EvoclawPluginWechat.Library.Progress
import EvoclawPluginWechat.Properties.RequestEffects
import EvoclawPluginWechat.Properties.RequestOwnership
import EvoclawPluginWechat.Properties.FinishedRequests
import EvoclawPluginWechat.Properties.RequestCost
import EvoclawPluginWechat.Properties.RequestProgress
import EvoclawPluginWechat.Library.Rotation
import EvoclawPluginWechat.Properties.PayloadOrigins
import EvoclawPluginWechat.Properties.PoolRotation
import EvoclawPluginWechat.Core.PoolStart
import EvoclawPluginWechat.Properties.PoolStartVerdict
import EvoclawPluginWechat.Properties.RequestRefinement
import EvoclawPluginWechat.Properties.DigestTransparency
import EvoclawPluginWechat.Core.Handler
import EvoclawPluginWechat.Library.JsonReader
import EvoclawPluginWechat.Properties.AskErrors
import EvoclawPluginWechat.Properties.HandlerRuns
import EvoclawPluginWechat.Properties.WireRoundTrip
import EvoclawPluginWechat.Properties.WebhookAnswers
import EvoclawPluginWechat.Properties.SubprocessInput
import EvoclawPluginWechat.Properties.HandlerRefinement
import EvoclawPluginWechat.Properties.HandlerProgress
import EvoclawPluginWechat.Properties.ReplayCount
import EvoclawPluginWechat.Properties.CheckoutSteps
import EvoclawPluginWechat.Properties.CheckoutAlone
