import HtcLeo.Lib.Run
import HtcLeo.Lib.Routine
import HtcLeo.Lib.Word
import HtcLeo.Lib.Buffer
import HtcLeo.Lib.Ring
import HtcLeo.Lib.Loop
import HtcLeo.Lib.Memory
import HtcLeo.Lib.Grid
import HtcLeo.Lib.Steps
import HtcLeo.Efi
import HtcLeo.Interrupt.InterruptDxe
import HtcLeo.Interrupt.IrqHandler
import HtcLeo.Interrupt.HandlerTable
import HtcLeo.Timer.GptTimerLib
import HtcLeo.Timer.MicroSecondDelay
import HtcLeo.Timer.RealTimeClock
import HtcLeo.Timer.TimerDxe
import HtcLeo.Gpio.MsmGpio
import HtcLeo.Gpio.Polarity
import HtcLeo.Gpio.Isr
import HtcLeo.Pcom.Mailbox
import HtcLeo.Pcom.Clients
import HtcLeo.Clock.ClockDxe
import HtcLeo.SdCard.Controller
import HtcLeo.SdCard.ReadBlock
import HtcLeo.SdCard.Sticky
import HtcLeo.SdCard.Csd
import HtcLeo.SdCard.Geometry
import HtcLeo.SdCard.BlockIo
import HtcLeo.SdCard.Transfer
import HtcLeo.SdCard.CardInit
import HtcLeo.SdCard.Cid
import HtcLeo.SdCard.InitSteps
import HtcLeo.SdCard.Published
import HtcLeo.Keypad.KeyStatus
import HtcLeo.Keypad.KeyBitmaps
import HtcLeo.Keypad.KeyTiming
import HtcLeo.Keypad.KeypadDevice
import HtcLeo.Keypad.Console
import HtcLeo.Keypad.KeyQueue
import HtcLeo.Keypad.KeyNotify
import HtcLeo.Keypad.KeyNotifyProcess
import HtcLeo.Keypad.TextIn
import HtcLeo.Keypad.KeypadLed
import HtcLeo.FrameBuffer.Blt
import HtcLeo.FrameBuffer.Footprint
import HtcLeo.FrameBuffer.LineBuffer
import HtcLeo.FrameBuffer.Paint
import HtcLeo.FrameBuffer.RoundTrip
import HtcLeo.FrameBuffer.ScreenCopy
import HtcLeo.FrameBuffer.SerialPort
import HtcLeo.FrameBuffer.SerialPortBounds
import HtcLeo.FrameBuffer.Invert
import HtcLeo.FrameBuffer.Glyph
import HtcLeo.FrameBuffer.SerialPortInterrupts
import HtcLeo.FrameBuffer.Terminal
import HtcLeo.GraphicsConsole.TextModes
import HtcLeo.GraphicsConsole.Cursor
import HtcLeo.GraphicsConsole.Calls
import HtcLeo.GraphicsConsole.FrameBufferConsole
import HtcLeo.ConSplitter.Attached
import HtcLeo.ConSplitter.LostMode
import HtcLeo.ConSplitter.KeyQueue
import HtcLeo.ConSplitter.KeyRuns
import HtcLeo.Tetris.Piece
import HtcLeo.Tetris.Board
import HtcLeo.Tetris.Lines
import HtcLeo.Tetris.Game
import HtcLeo.Tetris.Picture
import HtcLeo.Tetris.Core
import HtcLeo.Tetris.InPlay
import HtcLeo.Tetris.Cleared
import HtcLeo.BootShim.Machine
import HtcLeo.BootShim.Relocate
