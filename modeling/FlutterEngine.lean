import FlutterEngine.Shell.Pipeline.Accounting
import FlutterEngine.Fml.MessageLoopTaskQueues.Delivery
import FlutterEngine.Fml.MessageLoopTaskQueues.WakeUp
import FlutterEngine.Fml.GpuThreadMerger.Lease
import FlutterEngine.Codec.StandardCodec.RoundTrip
import FlutterEngine.Codec.Agreement
import FlutterEngine.Codec.WebAgreement
import FlutterEngine.Codec.JavaCodec.MethodCodec
import FlutterEngine.Window.PointerDataPacketConverter.Identifiers
import FlutterEngine.Window.PointerDataPacketConverter.Locations
import FlutterEngine.Fml.Base32.Canonical
import FlutterEngine.WebUi.MatchChildren
import FlutterEngine.WebUi.Text.LinesCalculator.Intrinsic
import FlutterEngine.WebUi.Text.LinesCalculator.Cover
import FlutterEngine.WebUi.Text.LinesCalculator.Characters
import FlutterEngine.WebUi.Text.WordBreaker.Agreement
import FlutterEngine.Ui.ChannelBuffers.Conservation
import FlutterEngine.Ui.ChannelBuffers.Control
import FlutterEngine.WebUi.RecordingCanvas.Soundness
import FlutterEngine.WebUi.Culling
import FlutterEngine.WebUi.Semantics.Consistency
import FlutterEngine.Fml.Message.Bounds
import FlutterEngine.Fml.ConcurrentMessageLoop.Completion
import FlutterEngine.Shell.Animator.Scheduling
import FlutterEngine.Shell.PointerDataDispatcher.Stream
import FlutterEngine.WebUi.AlarmClock.Rings
import FlutterEngine.WebUi.BrowserHistory.Entries
import FlutterEngine.WebUi.BrowserHistory.Switching
import FlutterEngine.WebUi.PointerBinding.Fits
import FlutterEngine.WebUi.PictureSurface.Coverage
import FlutterEngine.Fml.CommandLine.RoundTrip
import FlutterEngine.Fml.CommandLine.Lookup
import FlutterEngine.Shell.ExternalViewEmbedder.Submission
import FlutterEngine.Shell.FlutterTextInputView.Editing
import FlutterEngine.Shell.FlutterTextInputView.Positions
import FlutterEngine.Shell.TextInputModel
import FlutterEngine.Shell.TextChangedEvent
import FlutterEngine.Shell.AndroidKeyProcessor
import FlutterEngine.Shell.NodeAttributes
import FlutterEngine.Shell.SessionConnection
import FlutterEngine.Shell.ServiceProtocol
import FlutterEngine.Shell.TaskRunner
import FlutterEngine.Shell.TextInputPlugin
import FlutterEngine.Shell.AccessibilityViewEmbedder
import FlutterEngine.Shell.FrameTimings
import FlutterEngine.Flow.RasterCache.Transparency
import FlutterEngine.Flow.Readback
import FlutterEngine.Flow.SkiaUnrefQueue
import FlutterEngine.Ui.MultiFrameCodec
import FlutterEngine.Ui.CallbackCache
