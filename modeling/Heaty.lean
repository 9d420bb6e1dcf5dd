import Heaty.Lib.Base64
import Heaty.Lib.Decimal
import Heaty.Lib.Json
import Heaty.Lib.Framing
import Heaty.Lib.Transfer
import Heaty.Lib.Run
import Heaty.Lib.Slots
import Heaty.Lib.Ledger
import Heaty.Lib.FixedPoint
import Heaty.Lib.Keyed
import Heaty.Spec.Interfaces
import Heaty.Spec.Utils
import Heaty.Spec.McuExchange
import Heaty.Spec.Exchange
import Heaty.Spec.SerialSend
import Heaty.Spec.Bt
import Heaty.Spec.UartHandler
import Heaty.Spec.BleSystem
import Heaty.Spec.Collector
import Heaty.Spec.Companion
import Heaty.Spec.Arducam
import Heaty.Spec.CommCtrl
import Heaty.Spec.ModulesCommon
import Heaty.Spec.Fs
import Heaty.Spec.FsImpl
import Heaty.Spec.HeatMap
import Heaty.Spec.Mlx90640
import Heaty.Spec.MemoryHook
import Heaty.Spec.CompressData
import Heaty.Spec.Mqtt
import Heaty.Spec.Dyndata
import Heaty.Spec.HttpsClient
import Heaty.Spec.CameraService
import Heaty.Spec.Advertising
import Heaty.Spec.BleStatemachine
import Heaty.Proofs.Conns
import Heaty.Proofs.SendBounds
import Heaty.Proofs.ConnCount
import Heaty.Proofs.Bridge
import Heaty.Proofs.UartFrames
import Heaty.Proofs.Messages
import Heaty.Proofs.HandleMessage
import Heaty.Proofs.Exchange
import Heaty.Proofs.Resync
import Heaty.Proofs.ImagePath
import Heaty.Proofs.SendText
import Heaty.Proofs.CameraTransfer
import Heaty.Proofs.TakeImage
import Heaty.Proofs.SendPieces
import Heaty.Proofs.FsFile
import Heaty.Proofs.FsHelpers
import Heaty.Proofs.HeatMapScaling
import Heaty.Proofs.HeatMapImage
import Heaty.Proofs.HeatMapCoverage
import Heaty.Proofs.MemoryStatistics
import Heaty.Proofs.Realloc
import Heaty.Proofs.MemorySnapshot
import Heaty.Proofs.PrepareHeatmap
import Heaty.Proofs.MqttState
import Heaty.Proofs.MqttStrings
import Heaty.Proofs.DyndataCopies
import Heaty.Proofs.HttpsExchange
import Heaty.Proofs.HttpsHeader
import Heaty.Proofs.CameraSettings
import Heaty.Proofs.Advertising
import Heaty.Proofs.BleTarget
import Heaty.Spec.CertProvision
import Heaty.Proofs.CertProvision
import Heaty.Spec.MqttClient
import Heaty.Proofs.BrokerInit
import Heaty.Lib.LittleEndian
import Heaty.Spec.TimeService
import Heaty.Proofs.SetTime
import Heaty.Lib.Table
import Heaty.Spec.Statemachine
import Heaty.Proofs.Statemachine
import Heaty.Lib.Rounding
import Heaty.Spec.Exposure
import Heaty.Proofs.Exposure
import Heaty.Spec.SensorValue
import Heaty.Proofs.SensorValue
import Heaty.Spec.Diag
import Heaty.Proofs.Diag
import Heaty.Lib.RingQueue
import Heaty.Spec.Analysis
import Heaty.Proofs.Analysis
import Heaty.Spec.UartTx
import Heaty.Proofs.UartTx
import Heaty.Lib.RefPool
import Heaty.Spec.UartRx
import Heaty.Proofs.UartRx
import Heaty.Spec.UsbCdc
import Heaty.Proofs.UsbCdc
import Heaty.Spec.Listeners
import Heaty.Proofs.Delivery
import Heaty.Proofs.Draining
import Heaty.Spec.HeatMapPath
import Heaty.Spec.DeviatingPixels
import Heaty.Spec.PixelParameters
import Heaty.Proofs.HeatMapMessages
import Heaty.Proofs.HeatMapInvariant
import Heaty.Proofs.HeatMapPath
import Heaty.Proofs.DeviatingPixels
import Heaty.Lib.ExchangeSort
import Heaty.Proofs.BadPixelsCorrection
import Heaty.Lib.Scaling
import Heaty.Proofs.PixelParameters
